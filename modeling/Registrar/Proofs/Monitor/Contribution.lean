import Mathlib
import Registrar.Monitor.Scan

/-!
# What transactions contribute to a scan

Of a transaction only its calls have an effect: the registry, the attempts and their counts come out
as if the calls of all transactions were applied one after the other. Beside this a scan counts how
many transactions it looked at and how many of them it could not decode. A transaction that cannot
be decoded has no calls, however many of its calls could be read.
-/

namespace Registrar.Monitor

open Chain (Block Transaction)
open Contract (Call)

/-! ## One transaction -/

/-- The calls of the contract in the script of a transaction. There is no answer if the script
cannot be decoded: if it does not disassemble, or a call in it reads before its start. -/
def decode? (contract : Option ScriptHash) (tx : Transaction) : Option (List Call) :=
  match Script.disassemble tx.script with
  | .error _ => none
  | .ok code =>
    match (Contract.extract contract code).result with
    | .error _ => none
    | .ok calls => some calls

/-- Whether the script of a transaction cannot be decoded. -/
def undecodable (contract : Option ScriptHash) (tx : Transaction) : Bool :=
  (decode? contract tx).isNone

/-- The calls that a transaction makes; one that cannot be decoded makes none. -/
def callsIn (contract : Option ScriptHash) (tx : Transaction) : List Call :=
  (decode? contract tx).getD []

namespace Scan

/-- A scan that has looked at one more transaction and made these notes. -/
def look (s : Scan) (notes : Journal) : Scan :=
  { s with
    stats := { s.stats with transactionsScanned := s.stats.transactionsScanned + 1 }
    journal := s.journal ++ notes }

/-- A transaction is passed over if it cannot be decoded, and else its calls are applied. -/
theorem transaction_cases (contract : Option ScriptHash) (s : Scan) (tx : Transaction) :
    (decode? contract tx = none ∧
      ∃ notes message, transaction contract s tx = (s.look notes).fail tx message) ∨
    ∃ calls, decode? contract tx = some calls ∧
      ∃ notes, transaction contract s tx = calls.foldl call (s.look notes) := by
  unfold decode? transaction
  cases Script.disassemble tx.script with
  | error cause =>
    refine Or.inl ⟨rfl, [], cause.message, ?_⟩
    unfold look
    rw [List.append_nil]
  | ok code =>
    simp only
    cases (Contract.extract contract code).result with
    | error fault => exact Or.inl ⟨rfl, _, fault.message, rfl⟩
    | ok calls => exact Or.inr ⟨calls, rfl, _, rfl⟩

/-! ## Scans that have come to the same -/

/-- Whether two scans agree in what calls have an effect on. They may differ in their journals and
in their counts of transactions. -/
structure Agree (s s' : Scan) : Prop where
  registry : s.registry = s'.registry
  registrations : s.registrations = s'.registrations
  callsDecoded : s.stats.callsDecoded = s'.stats.callsDecoded
  attempts : s.stats.registrations = s'.stats.registrations
  accepted : s.stats.registrationsAccepted = s'.stats.registrationsAccepted

namespace Agree

theorem refl (s : Scan) : Agree s s :=
  ⟨rfl, rfl, rfl, rfl, rfl⟩

theorem symm {s s' : Scan} (h : Agree s s') : Agree s' s :=
  ⟨h.registry.symm, h.registrations.symm, h.callsDecoded.symm, h.attempts.symm, h.accepted.symm⟩

theorem trans {s s' s'' : Scan} (h : Agree s s') (h' : Agree s' s'') : Agree s s'' :=
  ⟨h.registry.trans h'.registry, h.registrations.trans h'.registrations,
    h.callsDecoded.trans h'.callsDecoded, h.attempts.trans h'.attempts,
    h.accepted.trans h'.accepted⟩

end Agree

/-- A call counts once, an attempt once more, and an accepted one a third time. -/
theorem count_eq (stats : Stats) (r : Option Mailbox.Registration) :
    count stats r = { stats with
      callsDecoded := stats.callsDecoded + 1
      registrations := stats.registrations + r.toList.length
      registrationsAccepted := stats.registrationsAccepted
        + r.toList.countP fun r => r.outcome.isRegistered } := by
  unfold count
  cases r with
  | none => rfl
  | some r =>
    simp only [Option.toList_some, List.length_singleton, List.countP_singleton]
    split_ifs <;> rfl

/-- A call has the same effect on scans that agree. -/
theorem Agree.call {s s' : Scan} (h : Agree s s') (c : Call) : Agree (s.call c) (s'.call c) := by
  unfold Scan.call
  rw [h.registry]
  simp only [count_eq]
  constructor
  · rfl
  · show s.registrations ++ _ = s'.registrations ++ _
    rw [h.registrations]
  · show s.stats.callsDecoded + 1 = s'.stats.callsDecoded + 1
    rw [h.callsDecoded]
  · show s.stats.registrations + _ = s'.stats.registrations + _
    rw [h.attempts]
  · show s.stats.registrationsAccepted + _ = s'.stats.registrationsAccepted + _
    rw [h.accepted]

theorem Agree.calls {s s' : Scan} (h : Agree s s') (calls : List Call) :
    Agree (calls.foldl Scan.call s) (calls.foldl Scan.call s') := by
  induction calls generalizing s s' with
  | nil => exact h
  | cons c calls ih => exact ih (h.call c)

/-! ## Stretches of a scan -/

/-- A stretch of a scan, from `s` to `s'`, that has the effect of `calls` and looks at `scanned`
transactions, of which it cannot decode `failures`. -/
structure Makes (s : Scan) (calls : List Call) (scanned failures : Nat) (s' : Scan) : Prop where
  agree : Agree s' (calls.foldl call s)
  scanned : s'.stats.transactionsScanned = s.stats.transactionsScanned + scanned
  failures : s'.stats.decodeFailures = s.stats.decodeFailures + failures

namespace Makes

theorem refl (s : Scan) : Makes s [] 0 0 s :=
  ⟨Agree.refl s, rfl, rfl⟩

theorem trans {s s' s'' : Scan} {calls calls' : List Call} {n n' f f' : Nat}
    (h : Makes s calls n f s') (h' : Makes s' calls' n' f' s'') :
    Makes s (calls ++ calls') (n + n') (f + f') s'' := by
  constructor
  · rw [List.foldl_append]
    exact h'.agree.trans (h.agree.calls calls')
  · rw [h'.scanned, h.scanned, Nat.add_assoc]
  · rw [h'.failures, h.failures, Nat.add_assoc]

/-- Calls are just their effect. -/
theorem calls (s : Scan) (calls : List Call) : Makes s calls 0 0 (calls.foldl call s) := by
  induction calls generalizing s with
  | nil => exact refl s
  | cons c calls ih =>
    have hstats : (s.call c).stats = count s.stats (s.registry.dispatch c).1.registration? := rfl
    have hcall : Makes s [c] 0 0 (s.call c) := by
      constructor
      · exact Agree.refl _
      · rw [hstats, count_eq]
        rfl
      · rw [hstats, count_eq]
        rfl
    exact hcall.trans (ih (s.call c))

/-- A transaction has the effect of its calls, and is a failure if it cannot be decoded. -/
theorem transaction (contract : Option ScriptHash) (s : Scan) (tx : Transaction) :
    Makes s (callsIn contract tx) 1 (if undecodable contract tx then 1 else 0)
      (Scan.transaction contract s tx) := by
  unfold undecodable callsIn
  rcases transaction_cases contract s tx with
    ⟨hdecode, notes, message, hscan⟩ | ⟨found, hdecode, notes, hscan⟩
  · rw [hdecode, hscan]
    exact ⟨⟨rfl, rfl, rfl, rfl, rfl⟩, rfl, rfl⟩
  · rw [hdecode, hscan]
    have hlook : Makes s [] 1 0 (s.look notes) := ⟨⟨rfl, rfl, rfl, rfl, rfl⟩, rfl, rfl⟩
    exact hlook.trans (Makes.calls _ found)

/-- Transactions have the effect of all their calls, in order. -/
theorem transactions (contract : Option ScriptHash) (s : Scan) (txs : List Transaction) :
    Makes s (txs.flatMap (callsIn contract)) txs.length (txs.countP (undecodable contract))
      (txs.foldl (Scan.transaction contract) s) := by
  induction txs generalizing s with
  | nil => exact refl s
  | cons tx txs ih =>
    rw [List.flatMap_cons, List.length_cons, List.countP_cons, Nat.add_comm txs.length,
      Nat.add_comm (txs.countP _)]
    exact (transaction contract s tx).trans (ih (Scan.transaction contract s tx))

end Makes

end Scan

/-! ## Blocks -/

/-- The invocations of a block have the effect of all their calls. -/
theorem makes_scan (m : Monitor) (txs : List Transaction) :
    Scan.Makes ⟨m.registry, m.stats, [], []⟩
      ((txs.filter Transaction.isInvocation).flatMap (callsIn m.target))
      (txs.countP Transaction.isInvocation)
      ((txs.filter Transaction.isInvocation).countP (undecodable m.target)) (m.scan txs) := by
  rw [List.countP_eq_length_filter]
  exact Scan.Makes.transactions _ _ _

end Registrar.Monitor
