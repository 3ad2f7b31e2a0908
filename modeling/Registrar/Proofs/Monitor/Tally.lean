import Mathlib
import Registrar.Proofs.Mailbox.Report
import Registrar.Proofs.Monitor.History
import Registrar.Proofs.Monitor.Irrelevance

/-!
# What the counts of a monitor tell

A block is worth the calls that its invocations make: the registry takes the attempts among them,
the reports are what these come to, and the counts rise by as much. So at any time the counts are
those of what was reported so far, and the registry holds as many mailboxes as were accepted.
-/

namespace Registrar.Monitor

open Chain (Block Store Transaction)
open Contract (Call)
open Mailbox (Attempt Records Registration Registry)

/-! ## Calls -/

/-- The attempts among calls. -/
def attemptsAmong (calls : List Call) : List Attempt :=
  calls.filterMap fun c => Mailbox.attempt? c.method c.args

theorem attemptsAmong_append (calls calls' : List Call) :
    attemptsAmong (calls ++ calls') = attemptsAmong calls ++ attemptsAmong calls' :=
  List.filterMap_append

/-- The calls that the invocations among transactions make of a contract. -/
def callsOf (contract : Option ScriptHash) (txs : List Transaction) : List Call :=
  (txs.filter Transaction.isInvocation).flatMap (callsIn contract)

theorem callsOf_append (contract : Option ScriptHash) (txs txs' : List Transaction) :
    callsOf contract (txs ++ txs') = callsOf contract txs ++ callsOf contract txs' := by
  unfold callsOf
  rw [List.filter_append, List.flatMap_append]

namespace Scan

/-- What a stretch of a scan, from `s` to `s'`, makes of these calls. -/
structure Applies (s : Scan) (calls : List Call) (s' : Scan) : Prop where
  registry : s'.registry = s.registry.enrollAll (attemptsAmong calls)
  registrations : s'.registrations = s.registrations ++ s.registry.report (attemptsAmong calls)
  callsDecoded : s'.stats.callsDecoded = s.stats.callsDecoded + calls.length
  attempts : s'.stats.registrations = s.stats.registrations + (attemptsAmong calls).length
  accepted : s'.stats.registrationsAccepted = s.stats.registrationsAccepted
    + (s.registry.report (attemptsAmong calls)).countP fun r => r.outcome.isRegistered

namespace Applies

theorem refl (s : Scan) : Applies s [] s :=
  ⟨rfl, (List.append_nil _).symm, rfl, rfl, rfl⟩

theorem trans {s s' s'' : Scan} {calls calls' : List Call} (h : Applies s calls s')
    (h' : Applies s' calls' s'') : Applies s (calls ++ calls') s'' := by
  constructor
  · rw [h'.registry, h.registry, attemptsAmong_append, Registry.enrollAll_append]
  · rw [h'.registrations, h.registrations, h.registry, attemptsAmong_append,
      Registry.report_append, List.append_assoc]
  · rw [h'.callsDecoded, h.callsDecoded, List.length_append, Nat.add_assoc]
  · rw [h'.attempts, h.attempts, attemptsAmong_append, List.length_append, Nat.add_assoc]
  · rw [h'.accepted, h.accepted, h.registry, attemptsAmong_append, Registry.report_append,
      List.countP_append, Nat.add_assoc]

theorem call (s : Scan) (c : Call) : Applies s [c] (s.call c) := by
  obtain ⟨hreport, hregistry⟩ := Mailbox.dispatch_spec s.registry c
  have hattempts : attemptsAmong [c] = (Mailbox.attempt? c.method c.args).toList := by
    unfold attemptsAmong
    rw [List.filterMap_cons]
    cases Mailbox.attempt? c.method c.args <;> rfl
  have hreported : (s.registry.dispatch c).1.registration?.toList
      = s.registry.report (attemptsAmong [c]) := by
    rw [hreport, hattempts]
    cases Mailbox.attempt? c.method c.args <;> rfl
  have hstats : (s.call c).stats = count s.stats (s.registry.dispatch c).1.registration? := rfl
  rw [count_eq, hreported] at hstats
  constructor
  · rw [hattempts]
    exact hregistry
  · rw [← hreported]
    rfl
  · rw [hstats]
    rfl
  · rw [hstats, ← Registry.length_report s.registry]
  · rw [hstats]

theorem calls (s : Scan) (calls : List Call) : Applies s calls (calls.foldl Scan.call s) := by
  induction calls generalizing s with
  | nil => exact refl s
  | cons c calls ih => exact (call s c).trans (ih (s.call c))

/-- What scans agree in is all that this is about. -/
theorem of_agree {s s' s'' : Scan} {calls : List Call} (h : Applies s calls s')
    (hagree : Agree s'' s') : Applies s calls s'' := by
  constructor
  · rw [hagree.registry, h.registry]
  · rw [hagree.registrations, h.registrations]
  · rw [hagree.callsDecoded, h.callsDecoded]
  · rw [hagree.attempts, h.attempts]
  · rw [hagree.accepted, h.accepted]

end Applies

/-! The number of processed blocks is no concern of a scan. -/

theorem blocksProcessed_calls (s : Scan) (calls : List Call) :
    (calls.foldl Scan.call s).stats.blocksProcessed = s.stats.blocksProcessed := by
  induction calls generalizing s with
  | nil => rfl
  | cons c calls ih =>
    have hstats : (s.call c).stats = count s.stats (s.registry.dispatch c).1.registration? := rfl
    rw [List.foldl_cons, ih, hstats, count_eq]

theorem blocksProcessed_transactions (contract : Option ScriptHash) (s : Scan)
    (txs : List Transaction) :
    (txs.foldl (Scan.transaction contract) s).stats.blocksProcessed = s.stats.blocksProcessed := by
  induction txs generalizing s with
  | nil => rfl
  | cons tx txs ih =>
    rw [List.foldl_cons, ih]
    rcases transaction_cases contract s tx with
      ⟨-, notes, message, hscan⟩ | ⟨calls, -, notes, hscan⟩
    · rw [hscan]
      rfl
    · rw [hscan, blocksProcessed_calls]
      rfl

end Scan

/-- What comes of a block is what comes of the calls in it. -/
theorem applies_scan (m : Monitor) (txs : List Transaction) :
    Scan.Applies ⟨m.registry, m.stats, [], []⟩ (callsOf m.target txs) (m.scan txs) :=
  (Scan.Applies.calls _ _).of_agree (makes_scan m txs).agree

/-- A block makes its attempts of the registry. -/
theorem registry_processBlock (m : Monitor) (b : Block) :
    (m.processBlock b).monitor.registry
      = m.registry.enrollAll (attemptsAmong (callsOf m.target b.transactions)) := by
  rw [processBlock_monitor]
  exact (applies_scan m b.transactions).registry

/-- What is reported of a block is what its attempts come to. -/
theorem registrations_processBlock (m : Monitor) (b : Block) :
    (m.processBlock b).registrations
      = m.registry.report (attemptsAmong (callsOf m.target b.transactions)) :=
  (applies_scan m b.transactions).registrations

/-- What a block adds to the counts. -/
theorem stats_processBlock (m : Monitor) (b : Block) :
    (m.processBlock b).monitor.stats =
      { blocksProcessed := m.stats.blocksProcessed + 1
        transactionsScanned := m.stats.transactionsScanned
          + b.transactions.countP Transaction.isInvocation
        decodeFailures := m.stats.decodeFailures
          + (b.transactions.filter Transaction.isInvocation).countP (undecodable m.target)
        callsDecoded := m.stats.callsDecoded + (callsOf m.target b.transactions).length
        registrations := m.stats.registrations
          + (attemptsAmong (callsOf m.target b.transactions)).length
        registrationsAccepted := m.stats.registrationsAccepted
          + (m.processBlock b).registrations.countP fun r => r.outcome.isRegistered } := by
  have hmakes := makes_scan m b.transactions
  have happlies := applies_scan m b.transactions
  have hblocks : (m.scan b.transactions).stats.blocksProcessed = m.stats.blocksProcessed :=
    Scan.blocksProcessed_transactions _ _ _
  rw [registrations_processBlock, processBlock_monitor]
  simp only [Stats.mk.injEq]
  refine ⟨?_, hmakes.scanned, hmakes.failures, happlies.callsDecoded, happlies.attempts,
    happlies.accepted⟩
  rw [hblocks]

/-! ## Tallies -/

/-- How the counts of a monitor go with its registry, with what it has reported, and with the number
of blocks that it has processed. -/
structure Tally (m : Monitor) (reported : List Registration) (blocks : Nat) : Prop where
  /-- As many attempts were accepted as the registry records. -/
  recorded : ∃ accepted, Records m.registry accepted ∧
    accepted.length = m.stats.registrationsAccepted
  accepted : m.stats.registrationsAccepted = reported.countP fun r => r.outcome.isRegistered
  attempts : m.stats.registrations = reported.length
  calls : m.stats.registrations ≤ m.stats.callsDecoded
  failures : m.stats.decodeFailures ≤ m.stats.transactionsScanned
  blocks : m.stats.blocksProcessed = blocks

namespace Tally

variable {m n : Monitor} {reported : List Registration} {blocks : Nat}

/-- A new monitor has done nothing. -/
theorem of_create {deployment : Option Transaction} {config : Config} {journal : Journal}
    (h : create deployment config = .ok (m, journal)) : Tally m [] 0 := by
  obtain ⟨tx, code, _, _, rfl⟩ := eq_of_create h
  exact ⟨⟨[], Records.empty, rfl⟩, rfl, rfl, Nat.le_refl _, Nat.le_refl _, rfl⟩

theorem processBlock (h : Tally m reported blocks) (b : Block) :
    Tally (m.processBlock b).monitor (reported ++ (m.processBlock b).registrations)
      (blocks + 1) := by
  obtain ⟨accepted, hrecords, hcount⟩ := h.recorded
  have hreports := registrations_processBlock m b
  rw [hreports]
  constructor
  · refine ⟨_, by rw [registry_processBlock]; exact hrecords.enrollAll _, ?_⟩
    rw [stats_processBlock, hreports, Registry.countP_report, List.length_append, hcount]
  · rw [stats_processBlock, hreports, List.countP_append, ← h.accepted]
  · rw [stats_processBlock, List.length_append, Registry.length_report, ← h.attempts]
  · rw [stats_processBlock]
    exact Nat.add_le_add h.calls (List.length_filterMap_le _ _)
  · rw [stats_processBlock, List.countP_eq_length_filter (p := Transaction.isInvocation)]
    exact Nat.add_le_add h.failures List.countP_le_length
  · rw [stats_processBlock, h.blocks]

theorem processAll (h : Tally m reported blocks) (bs : List Block) :
    Tally (m.processAll bs) (reported ++ (m.reports bs).flatMap Prod.snd) (blocks + bs.length) := by
  induction bs generalizing m reported blocks with
  | nil =>
    rw [reports, List.flatMap_nil, List.append_nil]
    exact h
  | cons b bs ih =>
    have hrest := ih (h.processBlock b)
    rw [List.append_assoc, Nat.add_right_comm] at hrest
    exact hrest

/-- A tally is a matter of the books alone. -/
theorem of_books (h : Tally m reported blocks) (hbooks : SameBooks n m) :
    Tally n reported blocks := by
  obtain ⟨accepted, hrecords, hcount⟩ := h.recorded
  constructor
  · exact ⟨accepted, by rw [hbooks.registry]; exact hrecords, by rw [hbooks.stats, hcount]⟩
  · rw [hbooks.stats, h.accepted]
  · rw [hbooks.stats, h.attempts]
  · rw [hbooks.stats]
    exact h.calls
  · rw [hbooks.stats]
    exact h.failures
  · rw [hbooks.stats, h.blocks]

end Tally

/-- Whatever was asked of a monitor, its counts are those of its log. -/
theorem History.tally {m : Monitor} {log : Log} (h : History m log) :
    Tally m log.reported log.processed.length := by
  obtain ⟨deployment, config, first, journal, hcreate, haccounts⟩ := h.accounts
  have htally := ((Tally.of_create hcreate).processAll log.blocks).of_books haccounts.books
  rw [← haccounts.processed, List.nil_append, Nat.zero_add] at htally
  unfold Log.blocks at htally
  rwa [List.length_map] at htally

/-- **The counts tell the truth.** However a monitor was made, polled, run, given blocks and asked
for transactions, and wherever that failed: the registry holds as many mailboxes as were accepted,
no more attempts were accepted than made nor more made than calls decoded, and no more transactions
failed than were scanned. The processed blocks are those that the height has moved past and those that were
given directly. The attempts are the ones that were reported, and the accepted ones those that were
reported as registered. -/
theorem counts_tell_truth {m : Monitor} {log : Log} (h : History m log) :
    m.stats.registrationsAccepted = m.registry.count ∧
    m.stats.registrationsAccepted ≤ m.stats.registrations ∧
    m.stats.registrations ≤ m.stats.callsDecoded ∧
    m.stats.decodeFailures ≤ m.stats.transactionsScanned ∧
    log.start ≤ m.height ∧
    m.stats.blocksProcessed = (m.height.toNat - log.start.toNat) + log.given ∧
    m.stats.registrations = log.reported.length ∧
    m.stats.registrationsAccepted = log.reported.countP fun r => r.outcome.isRegistered := by
  have htally := h.tally
  obtain ⟨accepted, hrecords, hcount⟩ := htally.recorded
  obtain ⟨_, _, _, _, _, haccounts⟩ := h.accounts
  have hgiven := haccounts.given
  have hheight := haccounts.height
  refine ⟨?_, ?_, htally.calls, htally.failures, ?_, ?_, htally.attempts, htally.accepted⟩
  · rw [hrecords.count_eq, hcount]
  · rw [htally.accepted, htally.attempts]
    exact List.countP_le_length
  · rw [UInt64.le_iff_toNat_le]
    omega
  · rw [htally.blocks]
    omega

/-- A new monitor is given a block that has a failure in it, and then polls a chain of one block. It
has processed one block more than its height says. -/
theorem counts_tell_truth_given :
    ∃ first journal, create (some firstDeployment) {} = .ok (first, journal) ∧
      ∃ m log, m = (poll storeProvider (first.processBlock firstBlockGarbled).monitor
          (Store.ofBlocks [firstBlock])).monitor ∧
        History m log ∧ log.start = 0 ∧ log.given = 1 ∧
        m.stats.registrationsAccepted = m.registry.count ∧
        m.stats.registrationsAccepted ≤ m.stats.registrations ∧
        m.stats.registrations ≤ m.stats.callsDecoded ∧
        m.stats.decodeFailures ≤ m.stats.transactionsScanned ∧
        m.stats.blocksProcessed = m.height.toNat + 1 ∧
        m.stats.registrations = log.reported.length ∧
        m.stats.registrationsAccepted = log.reported.countP fun r => r.outcome.isRegistered := by
  obtain ⟨first, journal, hcreate, _⟩ := create_firstDeployment
  refine ⟨first, journal, hcreate, ?_⟩
  have hfirst : History first { start := 0 } := History.create hcreate
  have hm := (hfirst.processBlock firstBlockGarbled).poll storeProvider
    (Store.ofBlocks [firstBlock])
  obtain ⟨haccepted, hattempts, hcalls, hfailures, -, hblocks, hreported⟩ := counts_tell_truth hm
  exact ⟨_, _, rfl, hm, rfl, rfl, haccepted, hattempts, hcalls, hfailures, hblocks, hreported⟩

end Registrar.Monitor
