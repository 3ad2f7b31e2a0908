import Mathlib
import Registrar.Monitor.Rehearsal
import Registrar.Monitor.Run

/-!
# What a provider was asked

Any provider can be made to remember each question with the answer that it gave and with what other
tasks asked of the control meanwhile. A monitor that polls it, or runs on it, comes to the same as on
the provider itself, so what is remembered is what the provider is asked.
-/

namespace Registrar.Monitor

open Chain (Block Transaction)

/-- A question, the answer to it, and what other tasks asked of the control while it was awaited. -/
inductive Answered where
  | height (answer : Except ProviderError UInt64) (requests : List Request)
  | block (h : UInt64) (answer : Except ProviderError (Option Block)) (requests : List Request)
  | transaction (hash : String) (answer : Except ProviderError (Option Transaction))
      (requests : List Request)

namespace Answered

/-- The question alone. -/
def question : Answered → Question
  | .height _ _ => .height
  | .block h _ _ => .block h
  | .transaction hash _ _ => .transaction hash

/-- The block that was fetched, after the height for which it was asked. -/
def fetched? : Answered → Option (UInt64 × Block)
  | .block h (.ok (some b)) _ => some (h, b)
  | _ => none

end Answered

/-- The state of a provider, and what it was asked, in order. -/
structure Recorded (σ : Type) where
  chain : σ
  answered : List Answered := []

namespace Recorded

variable {σ : Type}

/-- One more question was answered, and the provider's state is `chain` now. -/
def note (r : Recorded σ) (chain : σ) (a : Answered) : Recorded σ :=
  ⟨chain, r.answered ++ [a]⟩

/-- The questions that were asked. -/
def questions (r : Recorded σ) : List Question :=
  r.answered.map Answered.question

/-- The blocks that were fetched, each after the height for which it was asked. -/
def fetched (r : Recorded σ) : List (UInt64 × Block) :=
  r.answered.filterMap Answered.fetched?

theorem questions_note (r : Recorded σ) (chain : σ) (a : Answered) :
    (r.note chain a).questions = r.questions ++ [a.question] :=
  List.map_append

theorem fetched_note (r : Recorded σ) (chain : σ) (a : Answered) :
    (r.note chain a).fetched = r.fetched ++ a.fetched?.toList := by
  unfold fetched note
  rw [List.filterMap_append]
  cases h : a.fetched? <;> simp [h]

end Recorded

section

variable {σ τ : Type} {p : Provider σ} {goal : UInt64} {m : Monitor} {chain : σ}

/-! ## One question of a poll -/

theorem catchUp_of_not_lt (hge : ¬ m.height < goal) :
    catchUp p goal m chain = ⟨m, chain, [], .ok 0⟩ := by
  rw [catchUp, dif_neg hge]

theorem catchUp_of_refused (hlt : m.height < goal) {cause : ProviderError}
    (h : (p.block (m.height + 1) chain).1.answer = .error cause) :
    catchUp p goal m chain = ⟨m.heed (p.block (m.height + 1) chain).1.requests,
      (p.block (m.height + 1) chain).2, [], .error (.provider cause)⟩ := by
  rw [catchUp, dif_pos hlt]
  simp only [h]

theorem catchUp_of_missing (hlt : m.height < goal)
    (h : (p.block (m.height + 1) chain).1.answer = .ok none) :
    catchUp p goal m chain = ⟨m.heed (p.block (m.height + 1) chain).1.requests,
      (p.block (m.height + 1) chain).2, [], .error (.missingBlock (m.height + 1))⟩ := by
  rw [catchUp, dif_pos hlt]
  simp only [h]

theorem catchUp_of_block (hlt : m.height < goal) {b : Block}
    (h : (p.block (m.height + 1) chain).1.answer = .ok (some b)) :
    let processed := (m.heed (p.block (m.height + 1) chain).1.requests).processBlock b
    let rest := catchUp p goal { processed.monitor with height := m.height + 1 }
      (p.block (m.height + 1) chain).2
    catchUp p goal m chain
      = ⟨rest.monitor, rest.chain, processed.journal ++ rest.journal, rest.result.map (· + 1)⟩ := by
  rw [catchUp, dif_pos hlt]
  simp only [h]

theorem poll_of_refused {cause : ProviderError} (h : (p.height chain).1.answer = .error cause) :
    poll p m chain = ⟨m.heed (p.height chain).1.requests, (p.height chain).2, [],
      .error (.provider cause)⟩ := by
  unfold poll
  simp only [h]

theorem poll_of_height (h : (p.height chain).1.answer = .ok goal) :
    poll p m chain
      = catchUp p goal (m.heed (p.height chain).1.requests) (p.height chain).2 := by
  unfold poll
  simp only [h]

/-! ## Remembering the questions -/

/-- The same provider, which remembers what it is asked. -/
def Provider.recorded (p : Provider σ) : Provider (Recorded σ) where
  height := fun r =>
    let (reply, chain) := p.height r.chain
    (reply, r.note chain (.height reply.answer reply.requests))
  block := fun h r =>
    let (reply, chain) := p.block h r.chain
    (reply, r.note chain (.block h reply.answer reply.requests))
  transaction := fun hash r =>
    let (reply, chain) := p.transaction hash r.chain
    (reply, r.note chain (.transaction hash reply.answer reply.requests))

/-- What comes of a poll, with the chain seen in another way. -/
def Polled.map (f : σ → τ) (polled : Polled σ) : Polled τ :=
  { polled with chain := f polled.chain }

/-- Nothing else comes of catching up when the questions are remembered. -/
theorem catchUp_recorded (p : Provider σ) (goal : UInt64) (m : Monitor) (r : Recorded σ) :
    (catchUp p.recorded goal m r).map Recorded.chain = catchUp p goal m r.chain := by
  -- along the loop that remembers: the other one is given the same answers
  fun_induction catchUp p.recorded goal m r with
  | case1 m r hlt next reply r' hreply m' cause hanswer =>
    obtain ⟨rfl, rfl⟩ := Prod.mk.inj hreply
    rw [catchUp_of_refused hlt hanswer]
    rfl
  | case2 m r hlt next reply r' hreply m' hanswer =>
    obtain ⟨rfl, rfl⟩ := Prod.mk.inj hreply
    rw [catchUp_of_missing hlt hanswer]
    rfl
  | case3 m r hlt next reply r' hreply m' b hanswer processed rest ih =>
    obtain ⟨rfl, rfl⟩ := Prod.mk.inj hreply
    rw [catchUp_of_block hlt hanswer]
    exact congrArg (fun rest => (⟨rest.monitor, rest.chain, processed.journal ++ rest.journal,
      rest.result.map (· + 1)⟩ : Polled σ)) ih
  | case4 m r hlt =>
    rw [catchUp_of_not_lt hlt]
    rfl

/-- Nothing else comes of a poll when the questions are remembered. -/
theorem poll_recorded (p : Provider σ) (m : Monitor) (r : Recorded σ) :
    (poll p.recorded m r).map Recorded.chain = poll p m r.chain := by
  have hsame : (p.recorded.height r).1.answer = (p.height r.chain).1.answer := rfl
  cases hanswer : (p.height r.chain).1.answer with
  | error cause =>
    rw [poll_of_refused hanswer, poll_of_refused (hsame.trans hanswer)]
    rfl
  | ok goal =>
    rw [poll_of_height hanswer, poll_of_height (hsame.trans hanswer)]
    exact catchUp_recorded p goal _ _

/-- What comes of following a run, with the chain seen in another way. -/
def Ran.map (f : σ → τ) (ran : Ran σ) : Ran τ :=
  { ran with chain := f ran.chain }

theorem runOn_recorded (p : Provider σ) (polls : Nat) (m : Monitor) (r : Recorded σ) :
    (runOn p.recorded polls m r).map Recorded.chain = runOn p polls m r.chain := by
  induction polls generalizing m r with
  | zero =>
    unfold runOn
    split <;> rfl
  | succ polls ih =>
    unfold runOn
    rw [← poll_recorded p m r]
    split
    · -- the poll is the same, so it ends the run or leaves the same rest of it
      simp only [Polled.map]
      cases (poll p.recorded m r).result with
      | error cause => rfl
      | ok count =>
        simp only [← ih]
        rfl
    · rfl

/-- Nothing else comes of a run when the questions are remembered. -/
theorem run_recorded (p : Provider σ) (polls : Nat) (m : Monitor) (r : Recorded σ) :
    (run p.recorded polls m r).map Recorded.chain = run p polls m r.chain := by
  unfold run
  rw [← runOn_recorded]
  rfl

end

end Registrar.Monitor
