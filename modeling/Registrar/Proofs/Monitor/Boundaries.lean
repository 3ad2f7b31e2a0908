import Mathlib
import Registrar.Proofs.Monitor.Tally

/-!
# Where one block ends and the next begins

A block puts all its transactions into the cache and then scans its invocations, so two blocks put in
and scan in turns what one block with the transactions of both puts in first and scans afterwards.
That makes no difference: what is put in does not depend on what a scan has found, nor what it finds
on the cache. Each part of a monitor comes from the transactions in their order, wherever the blocks
are cut, and only the number of processed blocks tells how many there were.
-/

namespace Registrar.Monitor

open Chain (Block Transaction)

/-! ## One block for two -/

section

variable {m : Monitor} {b b' b'' : Block} (h : b.transactions = b'.transactions ++ b''.transactions)

include h

/-- What is reported of a block is what is reported of its beginning, and then of the rest. -/
theorem registrations_of_append :
    (m.processBlock b).registrations = (m.processBlock b').registrations
      ++ ((m.processBlock b').monitor.processBlock b'').registrations := by
  rw [registrations_processBlock, h, callsOf_append, attemptsAmong_append,
    Mailbox.Registry.report_append, registrations_processBlock, registrations_processBlock,
    registry_processBlock, target_processBlock]

theorem registry_of_append :
    ((m.processBlock b').monitor.processBlock b'').monitor.registry
      = (m.processBlock b).monitor.registry := by
  rw [registry_processBlock m b, h, callsOf_append, attemptsAmong_append,
    Mailbox.Registry.enrollAll_append, registry_processBlock, registry_processBlock,
    target_processBlock]

theorem cache_of_append :
    ((m.processBlock b').monitor.processBlock b'').monitor.cache
      = (m.processBlock b).monitor.cache := by
  rw [cache_processBlock m b, h, List.foldl_append, cache_processBlock, cache_processBlock]

/-- Each count of the whole is a sum over both parts, but for the number of blocks. -/
theorem stats_of_append :
    ((m.processBlock b').monitor.processBlock b'').monitor.stats
      = { (m.processBlock b).monitor.stats with
          blocksProcessed := m.stats.blocksProcessed + 2 } := by
  have hwhole := stats_processBlock m b
  rw [registrations_of_append h, h] at hwhole
  simp only [List.countP_append, List.filter_append, callsOf_append, attemptsAmong_append,
    List.length_append] at hwhole
  rw [stats_processBlock (m.processBlock b').monitor, target_processBlock, stats_processBlock m b',
    hwhole]
  simp only [Nat.add_assoc]

end

/-- **The boundaries of blocks do not matter.** Whether transactions stand in one block or some of
them in a block and the others in the next, and whatever else these blocks hold: the same is reported
of them, and a monitor becomes the same by them, with the same registry, cache and counts, but that it
has processed two blocks and not one. -/
theorem block_boundaries_do_not_matter (m : Monitor) (b b' b'' : Block)
    (txs txs' : List Transaction) :
    let whole := m.processBlock { b with transactions := txs ++ txs' }
    let first := m.processBlock { b' with transactions := txs }
    let second := first.monitor.processBlock { b'' with transactions := txs' }
    first.registrations ++ second.registrations = whole.registrations ∧
    whole.monitor.stats.blocksProcessed = m.stats.blocksProcessed + 1 ∧
    second.monitor = { whole.monitor with
      stats := { whole.monitor.stats with blocksProcessed := m.stats.blocksProcessed + 2 } } := by
  intro whole first second
  have hwhole : whole.monitor = _ := eq_processBlock m _
  have hfirst : first.monitor = _ := eq_processBlock m _
  have hsecond : second.monitor = _ := eq_processBlock first.monitor _
  have hregistry : second.monitor.registry = whole.monitor.registry := registry_of_append rfl
  have hcache : second.monitor.cache = whole.monitor.cache := cache_of_append rfl
  have hstats : second.monitor.stats
      = { whole.monitor.stats with blocksProcessed := m.stats.blocksProcessed + 2 } :=
    stats_of_append rfl
  refine ⟨(registrations_of_append rfl).symm, ?_, ?_⟩
  · exact congrArg Stats.blocksProcessed (stats_processBlock m _)
  · rw [hsecond, hregistry, hcache, hstats, hfirst, hwhole]

end Registrar.Monitor
