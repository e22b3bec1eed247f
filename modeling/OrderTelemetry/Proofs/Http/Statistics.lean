import OrderTelemetry.Proofs.Gateway.Traffic
import OrderTelemetry.Proofs.Http.Orders
import OrderTelemetry.Proofs.Stats.Finite

/-! # Statistics over the wire

Whatever passes the gateway, a page of records reaches the client, and so do the percentiles and the
shares in the statistics.  A mean may be infinite, though, since the sum of finite latencies may
be: then the text of the statistics has `null` in its place, and the client cannot read it.

* `Client.statistics_read`: what a client gets after any events.
* `Client.statistics_read_overflow`: two submissions, each in order, whose mean no client can
  read. -/

namespace OrderTelemetry

open Http Json

/-- The milliseconds of an instant stand for an instant, as they do for all but the last leap second
of the calendar. -/
def Instant.dated (t : Instant) : Bool := (ofMillis? t.millis).isSome

/-- The doubles that a service sends when it is asked for records or statistics: latencies, means
and shares.  Percentiles are latencies, and zero stands for those that are missing. -/
def Service.doubles (s : Service) : List Float :=
  (s.store.window.toList.flatMap fun r => r.latencies.values) ++ s.store.totals.avgRtt ::
    (s.store.detailedStats.means ++ s.store.detailedStats.shares)

/-- Zero is legible. -/
theorem Json.Codec.legible_zero : Float.isFinite 0.0 = true → Legible 0.0 := by decide +kernel

variable {r : Record}

/-- A record that has passed the gateway comes back as it is if its time is dated. -/
theorem Record.Passed.yields (h : r.Passed) (hid : r.id ≤ 0xFFFFFFFFFFFFFFFF)
    (hlegible : ∀ x ∈ r.latencies.values, x.isFinite = true → Codec.Legible x) :
    Record.codec.Yields r (if r.timestamp.dated then some r else none) := by
  have hyields := Record.yields hid h.first h.last fun x hx => hlegible x hx (h.latencies x hx).1
  have hwhole := h.whole
  unfold Instant.truncated at hwhole
  unfold Instant.dated
  cases htime : Instant.ofMillis? r.timestamp.millis with
  | none => rwa [htime] at hyields
  | some t =>
    rw [htime, Option.getD_some] at hwhole
    rwa [htime, hwhole] at hyields

namespace Gateway.Sound

variable {g : Gateway} (h : g.Sound)
include h

/-- Records of the window come back if all of them are dated. -/
theorem list_yields {records : List Record} (hsub : ∀ r ∈ records, r ∈ g.store.window.toList)
    (hlegible : ∀ r ∈ g.store.window.toList,
      ∀ x ∈ r.latencies.values, x.isFinite = true → Codec.Legible x) :
    (Codec.list Record.codec).Yields records
      (if records.all fun r => r.timestamp.dated then some records else none) := by
  rw [← Codec.mapM_guard]
  refine Codec.Yields.list fun r hr => ?_
  have hmem := hsub r hr
  have hid := h.rising.below r hmem
  have hids := h.ids
  exact (h.passed r hmem).yields (by unfold Store.lastId at hids; omega) (hlegible r hmem)

theorem isFinite_rtt : ∀ r ∈ g.store.window.toList, r.latencies.rtt.isFinite = true :=
  fun r hr => ((h.passed r hr).latencies _ (by simp [Latencies.values])).1

/-- The statistics come back if their mean is finite. -/
theorem stats_yields (hrtt : ∀ r ∈ g.store.window.toList, Codec.Legible r.latencies.rtt)
    (hmean : g.store.totals.avgRtt.isFinite = true → Codec.Legible g.store.totals.avgRtt) :
    ∃ stats, g.store.stats.answer = .ok stats ∧
      Stats.codec.Yields stats (Codec.ifFinite [stats.avgRtt] stats) := by
  refine ⟨_, h.accounted.stats, ?_⟩
  have hcounts := h.accounted.totals
  have hlength := h.length_le
  have hp99 : Codec.Legible (Percentile.ninetyNinth g.store.rtts) := by
    rw [← Percentile.nearestRank_ascending]
    exact Percentile.forall_nearestRank (Codec.legible_zero (by decide +kernel))
      (List.forall_mem_map.mpr hrtt) 99.0
  have hyields := Stats.yields (s := g.store.totals.toStats (Percentile.ninetyNinth g.store.rtts))
    (hcounts.count.trans_le hlength) (hcounts.failed_le.trans (hcounts.count.trans_le hlength))
    (List.forall_mem_cons.mpr ⟨hmean, List.forall_mem_singleton.mpr fun _ => hp99⟩)
  have hdoubles {a : Stats} :
      Codec.ifFinite (g.store.totals.toStats (Percentile.ninetyNinth g.store.rtts)).doubles a =
        Codec.ifFinite [g.store.totals.avgRtt] a := by
    simp [Codec.ifFinite, Stats.doubles, Totals.toStats, hp99.isFinite]
  rwa [hdoubles] at hyields

/-- Detailed statistics come back if their means are finite. -/
theorem detailedStats_yields
    (hlegible : ∀ x ∈ g.store.detailedStats.doubles, x.isFinite = true → Codec.Legible x) :
    DetailedStats.codec.Yields g.store.detailedStats
      (Codec.ifFinite g.store.detailedStats.means g.store.detailedStats) := by
  obtain ⟨htotal, hfailed, hbrokers⟩ := DetailedStats.counts_le g.store.window.toList
  have hlength := h.length_le
  have hyields := DetailedStats.yields (s := g.store.detailedStats) (htotal.trans hlength)
    (hfailed.trans hlength)
    (fun b hb => ⟨(hbrokers b hb).1.trans hlength, (hbrokers b hb).2.trans hlength⟩) hlegible
  -- percentiles and shares are finite anyway, so only the means are left to ask about
  have hall : g.store.detailedStats.doubles.all Float.isFinite =
      g.store.detailedStats.means.all Float.isFinite :=
    DetailedStats.all_doubles h.isFinite_rtt (by unfold Store.lastId at hlength; omega)
  unfold Codec.ifFinite at hyields ⊢
  rwa [hall] at hyields

end Gateway.Sound

/-- A submission in order whose round trip takes as long as a double can say. -/
def Submission.longest : Submission where
  orderId := "A"
  broker := "b"
  symbol := "S"
  orderType := "market"
  timestamp := none
  latencies := ⟨1.7976931348623157e308, 1.0, 0.0, 0.0, 0.0⟩
  status := .success
  error := none

namespace Http.Client

/-- The page that a client asks for, with or without its size, reaches the client as far as the
codec reads it. -/
theorem run_recentLogs {s : Service} {c : Client} {now : Instant} {limit : Option Nat}
    {o : Option (List Record)} (hroot : c.basePath = "")
    (hlimit : ∀ n ∈ limit, n ≤ 0xFFFFFFFFFFFFFFFF)
    (hyields : (Codec.list Record.codec).Yields (s.dashboard.recent s.store limit) o) :
    (c.recentLogs (Service.transport now) limit).run s =
      (o.elim (.error (.http "error decoding response body")) .ok, s) := by
  cases limit with
  | none => exact run_logs hroot Service.ofQuery?_nil hyields
  | some n => exact run_logs hroot (Service.ofQuery?_limit (hlimit n rfl)) hyields

/-- **What a client can read.**  After any submissions, sweeps and readings of the statistics, a
client at the root of the service gets the page of records that the dashboard has, unless one of
them is of the last leap second of the calendar, and it gets the statistics and the detailed
statistics of the store, unless one of the means in them is not finite.  Then it gets a fault. -/
theorem statistics_read (p : Retention) (g : Gateway) (events : List Gateway.Event)
    (dashboard : Dashboard) (c : Client) (now : Instant) (hstart : g.store = .empty p)
    (hevents : ∀ e ∈ events, e.OnCalendar) (hroot : c.basePath = "")
    (hlegible : ∀ x ∈ Service.doubles ⟨g.run events, dashboard⟩,
      x.isFinite = true → Codec.Legible x) :
    let s : Service := ⟨g.run events, dashboard⟩
    let unread := Fault.http "error decoding response body"
    (∀ limit : Option Nat, (∀ n ∈ limit, n ≤ 0xFFFFFFFFFFFFFFFF) →
      let page := dashboard.recent s.store limit
      (c.recentLogs (Service.transport now) limit).run s =
        (if page.all (fun r => r.timestamp.dated) then .ok page else .error unread, s)) ∧
      (∃ stats, s.store.stats.answer = .ok stats ∧
        (c.stats (Service.transport now)).run s =
          (if stats.avgRtt.isFinite then .ok stats else .error unread,
            s.withStore s.store.stats.state)) ∧
      (c.detailedStats (Service.transport now)).run s =
        (if s.store.detailedStats.means.all Float.isFinite then .ok s.store.detailedStats
          else .error unread, s) := by
  intro s unread
  have hsound : (g.run events).Sound := (Gateway.Sound.empty hstart).run hevents
  unfold Service.doubles at hlegible
  simp only [List.forall_mem_append, List.forall_mem_cons] at hlegible
  obtain ⟨hrecords, hmean, hmeans, hshares⟩ := hlegible
  have hlatencies : ∀ r ∈ s.store.window.toList,
      ∀ x ∈ r.latencies.values, x.isFinite = true → Codec.Legible x :=
    fun r hr x hx => hrecords x (List.mem_flatMap.mpr ⟨r, hr, hx⟩)
  have hrtt : ∀ r ∈ s.store.window.toList,
      r.latencies.rtt.isFinite = true → Codec.Legible r.latencies.rtt :=
    fun r hr => hlatencies r hr _ (by simp [Latencies.values])
  refine ⟨fun limit hlimit => ?_, ?_, ?_⟩
  · intro page
    have hpage : ∀ r ∈ page, r ∈ s.store.window.toList := fun r hr => Store.mem_of_mem_recent hr
    rw [run_recentLogs hroot hlimit (hsound.list_yields hpage hlatencies)]
    split_ifs <;> rfl
  · obtain ⟨stats, hanswer, hread⟩ :=
      hsound.stats_yields (fun r hr => hrtt r hr (hsound.isFinite_rtt r hr)) hmean
    refine ⟨stats, hanswer, ?_⟩
    have hget : (s.get .stats (Form.encode []) now).answer =
        .ok (.ofValue 200 Stats.codec stats) :=
      congrArg (Except.map (Response.ofValue 200 Stats.codec)) hanswer
    have hstate : (s.get .stats (Form.encode []) now).state = s.withStore s.store.stats.state := rfl
    refine (Service.run_get .stats hroot hget hstate hread).trans ?_
    rw [Codec.elim_ifFinite]
    simp only [List.all_cons, List.all_nil, Bool.and_true]
    rfl
  · have hread := hsound.detailedStats_yields
      (DetailedStats.forall_doubles Codec.legible_zero hrtt hmeans hshares)
    have hget : (s.get .detailedStats (Form.encode []) now).answer =
        .ok (.ofValue 200 DetailedStats.codec s.store.detailedStats) := rfl
    refine (Service.run_get .detailedStats hroot hget rfl hread).trans ?_
    rw [Codec.elim_ifFinite]
    rfl

/-- Two such submissions are stored, and a client gets their records.  It cannot read their mean. -/
theorem statistics_read_overflow :
    let events : List Gateway.Event := [.submit .longest ⟨100, 0⟩, .submit .longest ⟨101, 0⟩]
    let s : Service := ⟨(Gateway.ofStore (.empty .standard) 0.5).run events,
      Service.unused.dashboard⟩
    let c := Client.ofUrl "http://127.0.0.1:5000"
    let unread := Fault.http "error decoding response body"
    (∀ e ∈ events, e.OnCalendar) ∧ c.basePath = "" ∧
      (∀ x ∈ s.doubles, x.isFinite = true → Codec.Legible x) ∧
      (c.recentLogs (Service.transport ⟨102, 0⟩) none).run s =
        (.ok (s.store.window.toList.reverse), s) ∧
      s.store.window.size = 2 ∧
      ((c.stats (Service.transport ⟨102, 0⟩)).run s).1 = .error unread ∧
      ((c.detailedStats (Service.transport ⟨102, 0⟩)).run s).1 = .error unread := by
  intro events s c unread
  have hevents : ∀ e ∈ events, e.OnCalendar := by
    simp only [events, List.forall_mem_cons]
    exact ⟨(by decide : (⟨100, 0⟩ : Instant).OnCalendar),
      (by decide : (⟨101, 0⟩ : Instant).OnCalendar), fun _ h => (List.not_mem_nil h).elim⟩
  have hroot : c.basePath = "" := by decide +kernel
  have hlegible : ∀ x ∈ s.doubles, x.isFinite = true → Codec.Legible x := by decide +kernel
  obtain ⟨hrecent, ⟨stats, hanswer, hstats⟩, hdetailed⟩ :=
    statistics_read .standard (.ofStore (.empty .standard) 0.5) events Service.unused.dashboard c
      ⟨102, 0⟩ rfl hevents hroot hlegible
  have hpage : s.dashboard.recent s.store none = s.store.window.toList.reverse := by decide +kernel
  have hdated : s.store.window.toList.reverse.all (fun r => r.timestamp.dated) = true := by
    decide +kernel
  have hmean : s.store.stats.answer.toOption.map (fun stats => stats.avgRtt.isFinite) =
      some false := by decide +kernel
  have hmeans : s.store.detailedStats.means.all Float.isFinite = false := by decide +kernel
  refine ⟨hevents, hroot, hlegible, ?_, by decide +kernel, ?_, ?_⟩
  · refine (hrecent none (by simp)).trans ?_
    rw [show Service.unused.dashboard.recent s.store none = _ from hpage, if_pos hdated]
  · rw [hanswer] at hmean
    have hinfinite : stats.avgRtt.isFinite = false := Option.some.inj hmean
    rw [hstats, hinfinite]
    rfl
  · rw [hdetailed, hmeans]
    rfl

end Http.Client

end OrderTelemetry
