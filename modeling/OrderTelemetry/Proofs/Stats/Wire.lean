import OrderTelemetry.Proofs.Json.Records
import OrderTelemetry.Stats.Wire

/-! # Statistics read back

The text of statistics gives them back if all doubles in them are finite, and is not read at all if
one of them is not. -/

namespace OrderTelemetry

open Json Codec Fields

namespace Stats

/-- The doubles of some statistics. -/
def doubles (s : Stats) : List Float := [s.avgRtt, s.p99Rtt]

theorem yields {s : Stats} (htotal : s.totalOrders ≤ 0xFFFFFFFFFFFFFFFF)
    (hfailed : s.failedOrders ≤ 0xFFFFFFFFFFFFFFFF)
    (hlegible : ∀ x ∈ s.doubles, x.isFinite = true → Legible x) :
    Stats.codec.Yields s (ifFinite s.doubles s) := by
  simp only [doubles, List.forall_mem_cons] at hlegible
  obtain ⟨havg, hp99, -⟩ := hlegible
  exact Returns.map (.plain (uint64_yields htotal) <| .plain (uint64_yields hfailed) <|
    .cons (real_yields_ifFinite havg) <| .cons (real_yields_ifFinite hp99) returns_nil)
    rfl rfl (by decide)

end Stats

namespace Percentiles

/-- The four percentiles. -/
def doubles (p : Percentiles) : List Float := [p.p50, p.p90, p.p95, p.p99]

theorem yields {p : Percentiles} (hlegible : ∀ x ∈ p.doubles, x.isFinite = true → Legible x) :
    Percentiles.codec.Yields p (ifFinite p.doubles p) := by
  simp only [doubles, List.forall_mem_cons] at hlegible
  obtain ⟨hp50, hp90, hp95, hp99, -⟩ := hlegible
  exact Returns.map (.cons (real_yields_ifFinite hp50) <| .cons (real_yields_ifFinite hp90) <|
    .cons (real_yields_ifFinite hp95) <| .cons (real_yields_ifFinite hp99) returns_nil)
    rfl rfl (by decide)

end Percentiles

namespace SlaShares

/-- The three shares. -/
def doubles (s : SlaShares) : List Float := [s.under100, s.under150, s.under200]

theorem yields {s : SlaShares} (hlegible : ∀ x ∈ s.doubles, x.isFinite = true → Legible x) :
    SlaShares.codec.Yields s (ifFinite s.doubles s) := by
  simp only [doubles, List.forall_mem_cons] at hlegible
  obtain ⟨h100, h150, h200, -⟩ := hlegible
  exact Returns.map (.cons (real_yields_ifFinite h100) <| .cons (real_yields_ifFinite h150) <|
    .cons (real_yields_ifFinite h200) returns_nil) rfl rfl (by decide)

end SlaShares

namespace BrokerStats

/-- The doubles of the statistics of a broker. -/
def doubles (s : BrokerStats) : List Float := [s.avgRtt, s.p99Rtt]

theorem yields {s : BrokerStats} (htotal : s.totalOrders ≤ 0xFFFFFFFFFFFFFFFF)
    (hfailed : s.failedOrders ≤ 0xFFFFFFFFFFFFFFFF)
    (hlegible : ∀ x ∈ s.doubles, x.isFinite = true → Legible x) :
    BrokerStats.codec.Yields s (ifFinite s.doubles s) := by
  simp only [doubles, List.forall_mem_cons] at hlegible
  obtain ⟨havg, hp99, -⟩ := hlegible
  exact Returns.map (.plain (text_yields s.broker) <| .plain (uint64_yields htotal) <|
    .plain (uint64_yields hfailed) <| .cons (real_yields_ifFinite havg) <|
    .cons (real_yields_ifFinite hp99) returns_nil) rfl rfl (by decide)

end BrokerStats

namespace DetailedStats

/-- The doubles of detailed statistics. -/
def doubles (s : DetailedStats) : List Float :=
  [s.failureRate, s.avgRtt, s.avgTotal, s.avgOverhead] ++ (s.percentiles.doubles ++
    (s.sla.doubles ++ s.brokers.flatMap BrokerStats.doubles))

theorem yields {s : DetailedStats} (htotal : s.totalOrders ≤ 0xFFFFFFFFFFFFFFFF)
    (hfailed : s.failedOrders ≤ 0xFFFFFFFFFFFFFFFF)
    (hbrokers : ∀ b ∈ s.brokers,
      b.totalOrders ≤ 0xFFFFFFFFFFFFFFFF ∧ b.failedOrders ≤ 0xFFFFFFFFFFFFFFFF)
    (hlegible : ∀ x ∈ s.doubles, x.isFinite = true → Legible x) :
    DetailedStats.codec.Yields s (ifFinite s.doubles s) := by
  simp only [doubles, List.forall_mem_append, List.forall_mem_cons] at hlegible
  obtain ⟨⟨hrate, hrtt, htotals, hoverhead, -⟩, hpercentiles, hsla, hshown⟩ := hlegible
  have hlist : (Codec.list BrokerStats.codec).Yields s.brokers
      (ifFinite (s.brokers.flatMap BrokerStats.doubles) s.brokers) := by
    rw [← mapM_ifFinite]
    exact Yields.list fun b hb => BrokerStats.yields (hbrokers b hb).1 (hbrokers b hb).2
      fun x hx => hshown x (List.mem_flatMap.mpr ⟨b, hb, hx⟩)
  exact Returns.map (.plain (uint64_yields htotal) <| .plain (uint64_yields hfailed) <|
    .cons (real_yields_ifFinite hrate) <| .cons (real_yields_ifFinite hrtt) <|
    .cons (real_yields_ifFinite htotals) <| .cons (real_yields_ifFinite hoverhead) <|
    .cons (Percentiles.yields hpercentiles) <| .cons (SlaShares.yields hsla) <|
    .cons hlist returns_nil) (by simp [doubles]) rfl (by decide)

end DetailedStats

end OrderTelemetry
