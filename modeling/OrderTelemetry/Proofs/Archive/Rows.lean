import Mathlib.Tactic.SplitIfs
import OrderTelemetry.Archive.Basic

/-! # Records as rows

The archive keeps a record as a row, and makes a record of the row again when the window is filled
from it.  A row has less room than a record: for the id one bit, for the time all that is finer than
a millisecond, and for a latency the sign of zero.

* `Record.Archivable`: records for which this makes no difference.
* `Row.toRecord_ofRecord`: their rows give them back.
* `Database.rows_addRow`: a table takes them in their order as long as their ids rise.
* `Database.loadRecent_of_rows`, `Database.maxId_of_rows`: what a table of such rows answers. -/

namespace OrderTelemetry

/-! ### Doubles -/

namespace Double
open Float.Model

theorem unpacked_zero_of_beq {u : UnpackedFloat} {sign : UnpackedFloat.Sign}
    (h : u.beq (.zero sign) = true) : ∃ sign, u = .zero sign := by
  cases u with
  | infinity sign => cases sign <;> cases h
  | notANumber => cases h
  | zero sign => exact ⟨sign, rfl⟩
  | finite sign mantissa exponent hpos => cases sign <;> cases h

/-- Zero has neither bits of an exponent nor bits of a mantissa. -/
theorem fields_of_unpack_zero {format : Format} {bits : BitVec format.numBits}
    {sign : UnpackedFloat.Sign} (h : UnpackedFloat.unpack format bits = .zero sign) :
    UnpackedFloat.unpackExponent bits = 0#_ ∧ UnpackedFloat.unpackMantissa bits = 0#_ := by
  unfold UnpackedFloat.unpack at h
  dsimp only at h
  by_cases hones : UnpackedFloat.unpackExponent bits = -1#_
  · rw [if_pos hones] at h
    by_cases hmantissa : UnpackedFloat.unpackMantissa bits = 0#_
    · rw [if_pos hmantissa] at h
      cases h
    · rw [if_neg hmantissa] at h
      cases h
  · rw [if_neg hones] at h
    by_cases hexponent : UnpackedFloat.unpackExponent bits = 0#_
    · rw [if_pos hexponent] at h
      by_cases hmantissa : UnpackedFloat.unpackMantissa bits = 0#_
      · exact ⟨hexponent, hmantissa⟩
      · rw [dif_neg hmantissa] at h
        cases h
    · rw [if_neg hexponent] at h
      cases h

/-- Only two patterns of bits stand for zero: all bits are clear, or all but the sign. -/
theorem bits_of_unpack_zero {bits : BitVec 64} {sign : UnpackedFloat.Sign}
    (h : UnpackedFloat.unpack Format.binary64 bits = .zero sign) :
    bits = 0#64 ∨ bits = 0x8000000000000000#64 := by
  obtain ⟨hexponent, hmantissa⟩ := fields_of_unpack_zero h
  have hlow : bits.toNat % 2 ^ 52 = 0 := by
    simpa [UnpackedFloat.unpackMantissa] using congrArg BitVec.toNat hmantissa
  have hmiddle : bits.toNat / 2 ^ 52 % 2 ^ 11 = 0 := by
    simpa [UnpackedFloat.unpackExponent, Nat.shiftRight_eq_div_pow] using
      congrArg BitVec.toNat hexponent
  have hbound := bits.isLt
  rw [← BitVec.toNat_inj, ← BitVec.toNat_inj]
  simp only [BitVec.toNat_ofNat]
  omega

/-- There are two doubles that equal zero. -/
theorem zero_of_beq {x : Float} (h : (x == 0.0) = true) : x = 0.0 ∨ x = -0.0 := by
  obtain ⟨⟨bits, hvalid⟩⟩ := x
  have hbeq : (UnpackedFloat.unpack Format.binary64 bits.toBitVec).beq (.zero .positive) = true := h
  obtain ⟨sign, hsign⟩ := unpacked_zero_of_beq hbeq
  rcases bits_of_unpack_zero hsign with hbits | hbits
  · obtain rfl : bits = 0 := UInt64.toBitVec_inj.mp hbits
    exact Or.inl rfl
  · obtain rfl : bits = 0x8000000000000000 := UInt64.toBitVec_inj.mp hbits
    exact Or.inr rfl

theorem isNaN_of_isFinite {x : Float} (h : x.isFinite = true) : x.isNaN = false := by
  unfold Float.isFinite Float.Model.isFinite at h
  unfold Float.isNaN Float.Model.isNaN
  cases hx : x.toModel.unpack with
  | notANumber => rw [hx] at h; cases h
  | infinity sign => rfl
  | zero sign => rfl
  | finite sign mantissa exponent hpos => rfl

end Double

/-! ### Words -/

theorem OrderType.ofText_name (t : OrderType) : OrderType.ofText t.name = t := by
  cases t <;> decide +kernel

theorem OrderStatus.ofText?_name (s : OrderStatus) : OrderStatus.ofText? s.name = some s := by
  cases s <;> decide +kernel

/-! ### A record and its row -/

/-- The ids from `2 ^ 63` on have no room in a row. -/
def Row.idBound : Nat := 0x8000000000000000

/-- A record that loses nothing as a row. -/
structure Record.Archivable (r : Record) : Prop where
  id : r.id < Row.idBound
  timestamp : Instant.ofMillis? r.timestamp.millis = some r.timestamp
  latencies : ∀ e ∈ r.latencies.named, e.2.isNaN = false ∧ e.2 ≠ -0.0

namespace Row

theorem stored_of_ne {x : Float} (h : x ≠ -0.0) : stored x = x := by
  unfold stored
  split_ifs with hzero
  · rcases Double.zero_of_beq hzero with rfl | rfl
    · rfl
    · exact absurd rfl h
  · rfl

theorem id_ofRecord_of_lt {r : Record} (hid : r.id < idBound) : (ofRecord r).id = r.id := by
  unfold idBound at hid
  have hbmod : Int.bmod r.id 0x10000000000000000 = r.id :=
    Int.bmod_eq_of_le_mul_two (by omega) (by omega)
  unfold ofRecord
  rw [hbmod]

section Archivable
variable {r : Record} (h : r.Archivable)
include h

theorem id_ofRecord : (ofRecord r).id = r.id := id_ofRecord_of_lt h.id

theorem latencies_ofRecord : (ofRecord r).latencies = r.latencies := by
  have hvalues := h.latencies
  simp only [Latencies.named, List.forall_mem_cons] at hvalues
  obtain ⟨⟨-, hrtt⟩, ⟨-, htotal⟩, ⟨-, hvalidation⟩, ⟨-, hresponse⟩, ⟨-, hoverhead⟩, -⟩ := hvalues
  show (⟨stored _, stored _, stored _, stored _, stored _⟩ : Latencies) = _
  rw [stored_of_ne hrtt, stored_of_ne htotal, stored_of_ne hvalidation, stored_of_ne hresponse,
    stored_of_ne hoverhead]

/-- A table takes the row. -/
theorem isStorable_ofRecord : (ofRecord r).isStorable = true := by
  unfold isStorable
  rw [latencies_ofRecord h, List.all_eq_true]
  intro e he
  show (!e.2.isNaN) = true
  rw [(h.latencies e he).1]
  rfl

/-- **The row gives the record back.** -/
theorem toRecord_ofRecord : (ofRecord r).toRecord = .ok r := by
  have htimestamp : Instant.ofMillis? (ofRecord r).timestampMs = some r.timestamp := h.timestamp
  have hstatus : OrderStatus.ofText? (ofRecord r).status = some r.status :=
    OrderStatus.ofText?_name r.status
  have htype : OrderType.ofText (ofRecord r).orderType = r.orderType :=
    OrderType.ofText_name r.orderType
  unfold toRecord
  simp only [htimestamp, hstatus, htype, id_ofRecord h, latencies_ofRecord h]
  rw [if_neg (by omega)]
  rfl

end Archivable

end Row

/-! ### Tables of records -/

namespace Database

theorem insertRow_of_lt {row : Row} {rows : List Row} (h : ∀ a ∈ rows, a.id < row.id) :
    insertRow row rows = rows ++ [row] := by
  induction rows with
  | nil => rfl
  | cons first rest ih =>
    have hfirst := h first List.mem_cons_self
    unfold insertRow
    rw [if_neg (by omega), if_neg (by omega), ih fun a ha => h a (List.mem_cons_of_mem _ ha)]
    rfl

/-- A table takes records in their order as long as their ids rise. -/
theorem rows_addRow {d : Database} {before records : List Record}
    (hd : d.rows = before.map Row.ofRecord)
    (hrecords : ∀ r ∈ before ++ records, r.Archivable)
    (hordered : (before ++ records).Pairwise fun a b => a.id < b.id) :
    ((records.map Row.ofRecord).foldl addRow d).rows = (before ++ records).map Row.ofRecord := by
  induction records generalizing d before with
  | nil => simpa using hd
  | cons r rest ih =>
    have hr : r.Archivable := hrecords r (by simp)
    have hlast : ∀ a ∈ d.rows, a.id < (Row.ofRecord r).id := by
      intro a ha
      rw [hd] at ha
      obtain ⟨b, hb, rfl⟩ := List.mem_map.mp ha
      have hlt := (List.pairwise_append.mp hordered).2.2 b hb r List.mem_cons_self
      rw [Row.id_ofRecord hr, Row.id_ofRecord (hrecords b (List.mem_append_left _ hb))]
      omega
    have hnext : (d.addRow (Row.ofRecord r)).rows = (before ++ [r]).map Row.ofRecord := by
      unfold addRow
      rw [if_pos (Row.isStorable_ofRecord hr)]
      show insertRow _ d.rows = _
      rw [insertRow_of_lt hlast, hd]
      simp
    have hsame : before ++ r :: rest = before ++ [r] ++ rest := by simp
    rw [hsame] at hrecords hordered ⊢
    exact ih hnext hrecords hordered

section Answers
variable {d : Database} (hlocked : d.locked = false) (hdropped : d.dropped = false)
include hlocked hdropped

theorem guarded_of_free {α : Type} (operation : String) (a : α) :
    d.guarded operation a = .ok a := by
  unfold guarded obstacle?
  simp [hlocked, hdropped]

variable {records : List Record} (hrows : d.rows = records.map Row.ofRecord)
  (hrecords : ∀ r ∈ records, r.Archivable)
include hrows hrecords

/-- The table gives the newest records back. -/
theorem loadRecent_of_rows (limit : Nat) :
    d.loadRecent limit = .ok ((records.drop (records.length - limit)).map .ok) := by
  unfold loadRecent newest
  rw [guarded_of_free hlocked hdropped, hrows, List.length_map, ← List.map_drop,
    List.map_map]
  congr 1
  apply List.map_congr_left
  intro r hr
  exact Row.toRecord_ofRecord (hrecords r (List.mem_of_mem_drop hr))

/-- The highest id is that of the newest record. -/
theorem maxId_of_rows : d.maxId = .ok (records.getLast?.map Record.id) := by
  unfold maxId
  rw [guarded_of_free hlocked hdropped, hrows, List.getLast?_map]
  congr 1
  cases hlast : records.getLast? with
  | none => rfl
  | some r =>
    have hr := hrecords r (List.mem_of_getLast? hlast)
    simp [Row.id_ofRecord hr]

end Answers

@[simp] theorem dropped_addRow (d : Database) (row : Row) : (d.addRow row).dropped = d.dropped := by
  unfold addRow
  split_ifs <;> rfl

@[simp] theorem dropped_foldl_addRow (d : Database) (rows : List Row) :
    (rows.foldl addRow d).dropped = d.dropped := by
  induction rows generalizing d with
  | nil => rfl
  | cons row rest ih => rw [List.foldl_cons, ih, dropped_addRow]

@[simp] theorem locked_addRow (d : Database) (row : Row) : (d.addRow row).locked = d.locked := by
  unfold addRow
  split_ifs <;> rfl

@[simp] theorem locked_foldl_addRow (d : Database) (rows : List Row) :
    (rows.foldl addRow d).locked = d.locked := by
  induction rows generalizing d with
  | nil => rfl
  | cons row rest ih => rw [List.foldl_cons, ih, locked_addRow]

end Database

end OrderTelemetry
