import Mathlib
import Registrar.Proofs.Monitor.Tally

/-!
# Blocks that are processed again

A block that was processed once is spent: the attempts in it have all been made, so each of them is
refused from then on, whatever is processed in between. Which attempts are in a block depends on the
contract alone, and the contract never changes. So a spent block reports the same requests again and
registers none of them.
-/

namespace Registrar.Monitor

open Chain (Block Store)
open Mailbox (Attempt Records Registration Registry)

/-- Whether the attempts in a block are those that were reported of it, and are all refused. -/
structure Spent (m : Monitor) (b : Block) (reported : List Registration) : Prop where
  requests : reported.map (fun r => (r.address, r.name))
    = (attemptsAmong (callsOf m.target b.transactions)).map
      fun a => (a.address, Text.Utf8.decodeLossy a.name)
  refused : ∀ a ∈ attemptsAmong (callsOf m.target b.transactions), m.registry.Refuses a

theorem records_processBlock {m : Monitor} {accepted : List Attempt}
    (h : Records m.registry accepted) (b : Block) :
    ∃ accepted', Records (m.processBlock b).monitor.registry accepted' := by
  rw [registry_processBlock]
  exact ⟨_, h.enrollAll _⟩

namespace Spent

variable {m n : Monitor} {b : Block} {reported : List Registration}

/-- A block is spent when it has been processed. -/
theorem of_processBlock {accepted : List Attempt} (h : Records m.registry accepted)
    (b : Block) : Spent (m.processBlock b).monitor b (m.processBlock b).registrations := by
  constructor
  · rw [target_processBlock, registrations_processBlock, Registry.map_report]
  · intro a ha
    rw [target_processBlock] at ha
    rw [registry_processBlock]
    exact h.refuses_of_mem ha

/-- A spent block stays spent when another one is processed. -/
theorem processBlock {accepted : List Attempt} (h : Spent m b reported)
    (hrecords : Records m.registry accepted) (c : Block) :
    Spent (m.processBlock c).monitor b reported := by
  constructor
  · rw [target_processBlock]
    exact h.requests
  · intro a ha
    rw [target_processBlock] at ha
    rw [registry_processBlock]
    exact hrecords.refuses_enrollAll (h.refused a ha) _

theorem processAll {accepted : List Attempt} (h : Spent m b reported)
    (hrecords : Records m.registry accepted) (bs : List Block) :
    Spent (m.processAll bs) b reported := by
  induction bs generalizing m accepted with
  | nil => exact h
  | cons c bs ih =>
    obtain ⟨_, hnext⟩ := records_processBlock hrecords c
    exact ih (h.processBlock hrecords c) hnext

/-- Whether a block is spent is a matter of the books alone. -/
theorem of_books (h : Spent m b reported) (hbooks : SameBooks n m) : Spent n b reported := by
  have htarget : n.target = m.target := by
    unfold target
    rw [hbooks.contract]
  constructor
  · rw [htarget]
    exact h.requests
  · rw [htarget, hbooks.registry]
    exact h.refused

end Spent

/-- After blocks have been processed one after the other, each of them is spent. -/
theorem spent_of_mem_reports {m : Monitor} {accepted : List Attempt}
    (hrecords : Records m.registry accepted) {bs : List Block} {b : Block}
    {reported : List Registration} (hb : (b, reported) ∈ m.reports bs) :
    Spent (m.processAll bs) b reported := by
  induction bs generalizing m accepted with
  | nil => cases hb
  | cons c bs ih =>
    obtain ⟨_, hnext⟩ := records_processBlock hrecords c
    rw [reports, List.mem_cons] at hb
    rcases hb with heq | hlater
    · obtain ⟨rfl, rfl⟩ := Prod.mk.inj heq
      exact (Spent.of_processBlock hrecords b).processAll hnext bs
    · exact ih hnext hlater

/-- Whatever was asked of a monitor, the blocks of its log are spent. -/
theorem History.spent {m : Monitor} {log : Log} (h : History m log) {b : Block}
    {reported : List Registration} (hb : (b, reported) ∈ log.processed) : Spent m b reported := by
  obtain ⟨deployment, config, first, journal, hcreate, haccounts⟩ := h.accounts
  have hempty : Records first.registry [] := by
    rw [registry_of_create hcreate]
    exact Records.empty
  rw [haccounts.processed] at hb
  exact (spent_of_mem_reports hempty hb).of_books haccounts.books

/-- **A block that is processed again registers nothing.** Take any block that a monitor has ever
processed, given or polled, whatever was asked of the monitor before and since. Processed again, it
reports the same addresses and names in the same order as the first time, none of them registered,
and leaves the registry and the number of accepted attempts as they are. -/
theorem replay_registers_nothing {m : Monitor} {log : Log} (h : History m log) {b : Block}
    {reported : List Registration} (hb : (b, reported) ∈ log.processed) :
    (m.processBlock b).registrations.map (fun r => (r.address, r.name))
      = reported.map (fun r => (r.address, r.name)) ∧
    (∀ r ∈ (m.processBlock b).registrations, r.outcome ≠ .registered) ∧
    (m.processBlock b).monitor.registry = m.registry ∧
    (m.processBlock b).monitor.stats.registrationsAccepted = m.stats.registrationsAccepted := by
  have hspent := h.spent hb
  obtain ⟨hregistry, hreport⟩ := Registry.enrollAll_of_refuses hspent.refused
  rw [← registrations_processBlock] at hreport
  refine ⟨?_, hreport, ?_, ?_⟩
  · rw [registrations_processBlock, Registry.map_report, hspent.requests]
  · rw [registry_processBlock, hregistry]
  · -- the block adds to the count what it reports as registered, and that is nothing
    have haccepted := (applies_scan m b.transactions).accepted
    rw [← registrations_processBlock, List.countP_eq_zero.mpr] at haccepted
    · rw [processBlock_monitor]
      exact haccepted
    · intro r hr hregistered
      exact hreport r hr (of_decide_eq_true hregistered)

/-- The first block that a monitor is given registers a mailbox. -/
theorem countP_firstBlock {first : Monitor} {journal : Journal}
    (hcreate : create (some firstDeployment) {} = .ok (first, journal))
    (htarget : first.target = some (ScriptHash.ofScript [0x51])) :
    (first.processBlock firstBlock).registrations.countP (fun r => r.outcome.isRegistered) = 1 := by
  have hcarries : CarriesAll [firstBlock] [[[], [firstRequest]]] := by
    refine List.Forall₂.cons ?_ List.Forall₂.nil
    exact List.Forall₂.cons rfl (List.Forall₂.cons rfl List.Forall₂.nil)
  have hfits : ∀ r ∈ [[[], [firstRequest]]].flatten.flatten, r.step.Fits := by
    intro r hr
    rw [List.mem_singleton.mp hr]
    apply Script.Step.Buildable.fits
    · decide
    · trivial
  have hregistry := (processAll_carried hcarries hfits htarget).1
  have hattempt : firstRequest.attempt? (ScriptHash.ofScript [0x51])
      = some ⟨ScriptHash.zero, Text.Utf8.encode "alice"⟩ := if_pos rfl
  have hattempts : [[[], [firstRequest]]].flatten.flatten.filterMap
      (Invocation.attempt? (ScriptHash.ofScript [0x51]))
        = [⟨ScriptHash.zero, Text.Utf8.encode "alice"⟩] := by
    show [firstRequest].filterMap _ = _
    rw [List.filterMap_cons, hattempt]
    rfl
  rw [registry_of_create hcreate, hattempts] at hregistry
  have hone : (first.processBlock firstBlock).monitor.registry.count = 1 := by
    refine (congrArg Registry.count hregistry).trans ?_
    decide +kernel
  -- as many are reported as registered as the registry counts
  have htally := ((History.create hcreate).processBlock firstBlock).tally
  obtain ⟨accepted, hrecords, hcount⟩ := htally.recorded
  rw [htally.accepted, ← hrecords.count_eq, hone] at hcount
  exact (congrArg (List.countP _) (List.append_nil _)).symm.trans hcount.symm

/-- A new monitor is given the first block, which registers a mailbox, and polls a chain that has a
changed copy of that block. Given the first block again, it registers nothing. -/
theorem replay_registers_nothing_first :
    ∃ first journal, create (some firstDeployment) {} = .ok (first, journal) ∧
      let reported := (first.processBlock firstBlock).registrations
      ∃ m log, m = (poll storeProvider (first.processBlock firstBlock).monitor
          (Store.ofBlocks [firstBlockGarbled])).monitor ∧
        History m log ∧ (firstBlock, reported) ∈ log.processed ∧
        reported.countP (fun r => r.outcome.isRegistered) = 1 ∧
        (m.processBlock firstBlock).registrations.map (fun r => (r.address, r.name))
          = reported.map (fun r => (r.address, r.name)) ∧
        (∀ r ∈ (m.processBlock firstBlock).registrations, r.outcome ≠ .registered) ∧
        (m.processBlock firstBlock).monitor.registry = m.registry ∧
        (m.processBlock firstBlock).monitor.stats.registrationsAccepted
          = m.stats.registrationsAccepted := by
  obtain ⟨first, journal, hcreate, htarget⟩ := create_firstDeployment
  have hfirst := (History.create hcreate).processBlock firstBlock
  have hm := hfirst.poll storeProvider (Store.ofBlocks [firstBlockGarbled])
  refine ⟨first, journal, hcreate, _, _, rfl, hm, ?_, countP_firstBlock hcreate htarget, ?_⟩
  · exact List.mem_append_left _ (List.mem_singleton_self _)
  · exact replay_registers_nothing hm (List.mem_append_left _ (List.mem_singleton_self _))

end Registrar.Monitor
