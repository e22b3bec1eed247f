import Mathlib.Algebra.GroupWithZero.Nat
import Mathlib.Data.List.Induction
import Mathlib.Data.String.Basic
import OrderTelemetry.Proofs.Store.Statistics
import OrderTelemetry.Proofs.Text.ByteOrder

/-! # The statistics of brokers

One pass over the records keeps a sample of all of them and one for each broker side by side.  What
it gathers for a broker is what a pass over the records of that broker alone gathers for all: the
same records are added in the same order, so the sums are rounded in the same way.

* `Sample.ofList`: the sample of a list of records.
* `Split`: samples by broker that are those of the records of each, in the order of the names.
* `DetailedStats.brokers_split`: the statistics of a broker are those of its records, and the counts
  of all brokers add up. -/

namespace OrderTelemetry

variable {records : List Record} {r : Record}

/-- The records of a broker, in their order. -/
def ofBroker (records : List Record) (broker : String) : List Record :=
  records.filter fun r => r.broker == broker

theorem ofBroker_append_singleton (records : List Record) (r : Record) (broker : String) :
    ofBroker (records ++ [r]) broker =
      if r.broker = broker then ofBroker records broker ++ [r] else ofBroker records broker := by
  unfold ofBroker
  split_ifs with hbroker <;> simp [hbroker]

theorem ofBroker_ne_nil_iff {broker : String} :
    ofBroker records broker ≠ [] ↔ ∃ r ∈ records, r.broker = broker := by
  simp [ofBroker, List.filter_eq_nil_iff]

/-- The sample of a list of records. -/
def Sample.ofList (records : List Record) : Sample := records.foldl add zero

theorem Sample.ofList_append_singleton (records : List Record) (r : Record) :
    ofList (records ++ [r]) = (ofList records).add r := List.foldl_append

/-! ### Samples by broker -/

section Samples
variable {brokers : List (String × Sample)}

/-- A record brings its broker among the brokers. -/
theorem mem_names_addToBroker {broker : String} :
    broker ∈ (addToBroker r brokers).map Prod.fst ↔
      broker = r.broker ∨ broker ∈ brokers.map Prod.fst := by
  induction brokers with
  | nil => simp [addToBroker]
  | cons b rest ih =>
    unfold addToBroker
    split_ifs with hbefore hsame
    · simp
    · simp [hsame]
    · rw [List.map_cons, List.mem_cons, ih, List.map_cons, List.mem_cons]
      exact or_left_comm

/-- The brokers stay in the order of their names. -/
theorem pairwise_addToBroker (h : brokers.Pairwise fun a b => a.1 < b.1) :
    (addToBroker r brokers).Pairwise fun a b => a.1 < b.1 := by
  induction brokers with
  | nil => exact List.pairwise_singleton _ _
  | cons b rest ih =>
    obtain ⟨hb, hrest⟩ := List.pairwise_cons.mp h
    unfold addToBroker
    split_ifs with hbefore hsame
    · refine List.pairwise_cons.mpr ⟨?_, h⟩
      exact List.forall_mem_cons.mpr ⟨hbefore, fun a ha => lt_trans hbefore (hb a ha)⟩
    · exact List.pairwise_cons.mpr ⟨hb, hrest⟩
    · refine List.pairwise_cons.mpr ⟨fun a ha => ?_, ih hrest⟩
      have hafter : b.1 < r.broker := lt_of_le_of_ne (not_lt.mp hbefore) (Ne.symm hsame)
      rcases mem_names_addToBroker.mp (List.mem_map_of_mem ha) with hname | hname
      · rwa [hname]
      · obtain ⟨a', ha', hname⟩ := List.mem_map.mp hname
        rw [← hname]
        exact hb a' ha'

/-- Samples by broker are those of the records of each broker, in the order of the names, and there
are none of others. -/
structure Split (brokers : List (String × Sample)) (records : List Record) : Prop where
  ordered : brokers.Pairwise fun a b => a.1 < b.1
  names : ∀ broker, broker ∈ brokers.map Prod.fst ↔ ∃ r ∈ records, r.broker = broker
  samples : ∀ b ∈ brokers, b.2 = Sample.ofList (ofBroker records b.1)

/-- Samples of other brokers do not change. -/
theorem sample_of_ne {b : String × Sample} (h : b.2 = Sample.ofList (ofBroker records b.1))
    (hne : r.broker ≠ b.1) : b.2 = Sample.ofList (ofBroker (records ++ [r]) b.1) := by
  rw [ofBroker_append_singleton, if_neg hne]
  exact h

/-- A record joins the sample of its broker, or it is the first of its broker. -/
theorem samples_addToBroker (hordered : brokers.Pairwise fun a b => a.1 < b.1)
    (hsamples : ∀ b ∈ brokers, b.2 = Sample.ofList (ofBroker records b.1))
    (hfirst : r.broker ∉ brokers.map Prod.fst → ofBroker records r.broker = []) :
    ∀ b ∈ addToBroker r brokers, b.2 = Sample.ofList (ofBroker (records ++ [r]) b.1) := by
  have hfresh (hnil : ofBroker records r.broker = []) :
      Sample.zero.add r = Sample.ofList (ofBroker (records ++ [r]) r.broker) := by
    rw [ofBroker_append_singleton, if_pos rfl, hnil]
    rfl
  induction brokers with
  | nil => exact List.forall_mem_singleton.mpr (hfresh (hfirst (by simp)))
  | cons b rest ih =>
    obtain ⟨hb, hrest⟩ := List.pairwise_cons.mp hordered
    obtain ⟨hhead, htail⟩ := List.forall_mem_cons.mp hsamples
    unfold addToBroker
    split_ifs with hbefore hsame
    -- the record comes before all names, so it is the first of its broker
    · have hlt : ∀ a ∈ b :: rest, r.broker < a.1 :=
        List.forall_mem_cons.mpr ⟨hbefore, fun a ha => lt_trans hbefore (hb a ha)⟩
      have hmissing : r.broker ∉ (b :: rest).map Prod.fst := by
        intro hmem
        obtain ⟨a, ha, hname⟩ := List.mem_map.mp hmem
        exact (hlt a ha).ne' hname
      exact List.forall_mem_cons.mpr ⟨hfresh (hfirst hmissing),
        fun a ha => sample_of_ne (hsamples a ha) (hlt a ha).ne⟩
    · refine List.forall_mem_cons.mpr ⟨?_, fun a ha => ?_⟩
      · show b.2.add r = Sample.ofList (ofBroker (records ++ [r]) b.1)
        rw [ofBroker_append_singleton, if_pos hsame, Sample.ofList_append_singleton, hhead]
      · exact sample_of_ne (htail a ha) (hsame ▸ (hb a ha).ne)
    · refine List.forall_mem_cons.mpr ⟨sample_of_ne hhead hsame, ih hrest htail ?_⟩
      intro hmissing
      refine hfirst fun hmem => ?_
      rcases List.mem_cons.mp hmem with hname | hname
      · exact hsame hname
      · exact hmissing hname

theorem Split.nil : Split [] [] := ⟨.nil, by simp, by simp⟩

theorem Split.add (h : Split brokers records) : Split (addToBroker r brokers) (records ++ [r]) where
  ordered := pairwise_addToBroker h.ordered
  names := by
    intro broker
    simp only [mem_names_addToBroker, h.names, List.mem_append, List.mem_singleton, or_and_right,
      exists_or, exists_eq_left]
    exact or_comm.trans (or_congr_right eq_comm)
  samples := by
    refine samples_addToBroker h.ordered h.samples fun hmissing => ?_
    rw [h.names, ← ofBroker_ne_nil_iff, not_not] at hmissing
    exact hmissing

/-- What is counted of samples grows by what it grows for the sample of a broker. -/
theorem sum_addToBroker {f : Sample → Nat} {n : Nat} (hzero : f .zero = 0)
    (hadd : ∀ sample : Sample, f (sample.add r) = f sample + n) :
    ((addToBroker r brokers).map fun b => f b.2).sum = (brokers.map fun b => f b.2).sum + n := by
  induction brokers with
  | nil => simp [addToBroker, hadd, hzero]
  | cons b rest ih =>
    unfold addToBroker
    split_ifs with hbefore hsame
    · simp only [List.map_cons, List.sum_cons, hadd, hzero]
      omega
    · simp only [List.map_cons, List.sum_cons, hadd]
      omega
    · simp only [List.map_cons, List.sum_cons, ih]
      omega

end Samples

/-! ### Scans -/

namespace Scan

theorem ofList_append_singleton (records : List Record) (r : Record) :
    ofList (records ++ [r]) = (ofList records).add r := List.foldl_append

/-- A scan has the sample of all records. -/
theorem all_ofList (records : List Record) : (ofList records).all = Sample.ofList records := by
  induction records using List.reverseRecOn with
  | nil => rfl
  | append_singleton records r ih =>
    rw [ofList_append_singleton, Sample.ofList_append_singleton, ← ih]
    rfl

/-- **A scan splits the records by their brokers.** -/
theorem split_ofList (records : List Record) : Split (ofList records).brokers records := by
  induction records using List.reverseRecOn with
  | nil => exact .nil
  | append_singleton records r ih =>
    rw [ofList_append_singleton]
    exact ih.add

/-- What is counted of the samples of all brokers is counted of the sample of all records. -/
theorem sum_brokers {f : Sample → Nat} {n : Record → Nat} (hzero : f .zero = 0)
    (hadd : ∀ (sample : Sample) r, f (sample.add r) = f sample + n r) (records : List Record) :
    ((ofList records).brokers.map fun b => f b.2).sum = f (ofList records).all := by
  induction records using List.reverseRecOn with
  | nil => exact hzero.symm
  | append_singleton records r ih =>
    have hall : ((ofList records).add r).all = (ofList records).all.add r := rfl
    rw [ofList_append_singleton, hall, hadd, ← ih]
    exact sum_addToBroker hzero fun sample => hadd sample r

end Scan

/-! ### Detailed statistics -/

namespace DetailedStats

theorem ofRecords_of_ne_nil (h : records ≠ []) : ofRecords records = (Scan.ofList records).details :=
  if_neg (by simpa using h)

theorem brokers_ofRecords (records : List Record) :
    (ofRecords records).brokers =
      (Scan.ofList records).brokers.map fun b => b.2.brokerStats b.1 := by
  by_cases hrecords : records = []
  · subst hrecords
    rfl
  · rw [ofRecords_of_ne_nil hrecords]
    rfl

theorem counts_ofRecords (records : List Record) :
    (ofRecords records).totalOrders = (Scan.ofList records).all.totals.count ∧
      (ofRecords records).failedOrders = (Scan.ofList records).all.totals.failed := by
  by_cases hrecords : records = []
  · subst hrecords
    exact ⟨rfl, rfl⟩
  · rw [ofRecords_of_ne_nil hrecords]
    exact ⟨rfl, rfl⟩

theorem names_ofRecords (records : List Record) :
    (ofRecords records).brokers.map BrokerStats.broker =
      (Scan.ofList records).brokers.map Prod.fst := by
  rw [brokers_ofRecords]
  exact List.map_map

/-- What a sample says about a broker is what the detailed statistics of the same records say about
all of them. -/
theorem brokerStats_ofList (h : records ≠ []) (broker : String) :
    let own := ofRecords records
    (Sample.ofList records).brokerStats broker =
      ⟨broker, own.totalOrders, own.failedOrders, own.avgRtt, own.percentiles.p99⟩ := by
  intro own
  have hown : own = (Scan.ofList records).details := ofRecords_of_ne_nil h
  rw [hown, ← Scan.all_ofList]
  rfl

/-- **The statistics of a broker are those of its records.**  Every name of a broker is listed once,
in the order of the octets.  What is said about a broker is what the detailed statistics of its
records alone say about all of them, with the same doubles.  The counts of all brokers add up to
those of all records. -/
theorem brokers_split (records : List Record) :
    let stats := ofRecords records
    let names := stats.brokers.map BrokerStats.broker
    (∀ broker, broker ∈ names ↔ ∃ r ∈ records, r.broker = broker) ∧ names.Nodup ∧
      (names.Pairwise fun a b => Text.Utf8.encode a.toList < Text.Utf8.encode b.toList) ∧
      (∀ b ∈ stats.brokers,
        let own := ofRecords (ofBroker records b.broker)
        b.totalOrders = own.totalOrders ∧ b.failedOrders = own.failedOrders ∧
          b.avgRtt = own.avgRtt ∧ b.p99Rtt = own.percentiles.p99) ∧
      (stats.brokers.map BrokerStats.totalOrders).sum = stats.totalOrders ∧
      (stats.brokers.map BrokerStats.failedOrders).sum = stats.failedOrders := by
  intro stats names
  have hsplit := Scan.split_ofList records
  have hbrokers := brokers_ofRecords records
  have hnames : names = (Scan.ofList records).brokers.map Prod.fst := names_ofRecords records
  have hordered : names.Pairwise fun a b => a < b := by
    rw [hnames]
    exact List.pairwise_map.mpr hsplit.ordered
  obtain ⟨hcount, hfailed⟩ := counts_ofRecords records
  refine ⟨fun broker => ?_, hordered.imp ne_of_lt, hordered.imp fun h => ?_, ?_, ?_, ?_⟩
  · rw [hnames]
    exact hsplit.names broker
  · exact Text.Utf8.encode_lt_encode (String.lt_iff.mp h)
  · intro b hb own
    rw [hbrokers] at hb
    obtain ⟨⟨broker, sample⟩, hmem, rfl⟩ := List.mem_map.mp hb
    have hne : ofBroker records broker ≠ [] :=
      ofBroker_ne_nil_iff.mpr ((hsplit.names broker).mp (List.mem_map_of_mem hmem))
    have hsample : sample = Sample.ofList (ofBroker records broker) := hsplit.samples _ hmem
    have hown := brokerStats_ofList hne broker
    rw [← hsample] at hown
    exact ⟨congrArg BrokerStats.totalOrders hown, congrArg BrokerStats.failedOrders hown,
      congrArg BrokerStats.avgRtt hown, congrArg BrokerStats.p99Rtt hown⟩
  · rw [hbrokers, hcount, List.map_map]
    exact Scan.sum_brokers (f := fun sample => sample.totals.count) (n := fun _ => 1) rfl
      (fun _ _ => rfl) records
  · rw [hbrokers, hfailed, List.map_map]
    exact Scan.sum_brokers (f := fun sample => sample.totals.failed)
      (n := fun r => if r.isFailure then 1 else 0) rfl
      (fun sample r => by simp only [Sample.add, Totals.add]; split_ifs <;> rfl) records

end DetailedStats

end OrderTelemetry
