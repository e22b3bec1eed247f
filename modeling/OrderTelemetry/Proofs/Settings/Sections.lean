import OrderTelemetry.Proofs.Settings.Layers
import OrderTelemetry.Settings.Sections

/-! # Settings are read by what stands at paths

Whatever is read of written settings is the same for settings that are alike (`Respects`): the
readers of single values refuse tables, and those of sections look their parts up by name.

Two settings are texts that nothing is asked of but that they are texts: the path of the archive and
the host of the server (`TextKey`).  Another value for one of them makes a difference nowhere else
(`TextKey.ofSetting?_put`). -/

namespace OrderTelemetry

namespace Setting

/-- Settings that are alike are read as the same. -/
def Respects {α : Type} (read : Setting → α) : Prop := ∀ v w, Alike v w → read v = read w

variable {α β : Type} {v w : Setting} {a b : Option Setting}

/-- Values that are alike are both there or both not. -/
theorem AlikeIfAny.cases (h : AlikeIfAny a b) :
    (a = none ∧ b = none) ∨ ∃ v w, a = .some v ∧ b = .some w ∧ Alike v w := by
  have hthere := h []
  cases a with
  | none => cases b with
    | none => exact .inl ⟨rfl, rfl⟩
    | some w => cases hthere
  | some v => cases b with
    | none => cases hthere
    | some w => exact .inr ⟨v, w, rfl, rfl, h⟩

theorem Alike.part (h : Alike v w) (position : Nat) (name : String) :
    AlikeIfAny (v.part position name) (w.part position name) := by
  rcases h.cases with ⟨ms, ns, rfl, rfl, hmembers⟩ | rfl
  · exact hmembers name
  · exact .refl _

namespace Respects

variable {read : Setting → Option α}

theorem const (x : α) : Respects fun _ => x := fun _ _ _ => rfl

/-- What is not read from tables is read from the same value or not at all. -/
theorem of_table (h : ∀ ms, read (.table ms) = none) : Respects read := by
  intro v w hvw
  rcases hvw.cases with ⟨ms, ns, rfl, rfl, -⟩ | rfl
  · rw [h, h]
  · rfl

theorem bind {f : α → Setting → Option β} (h : Respects read) (hf : ∀ x, Respects (f x)) :
    Respects fun v => (read v).bind fun x => f x v := by
  intro v w hvw
  dsimp only
  rw [h v w hvw]
  exact congrArg ((read w).bind ·) (funext fun x => hf x v w hvw)

theorem map (h : Respects read) (f : α → β) : Respects fun v => (read v).map f :=
  fun v w hvw => congrArg (Option.map f) (h v w hvw)

theorem partOr (h : Respects read) (position : Nat) (name : String) (usual : α) :
    Respects fun v => v.partOr position name read usual := by
  intro v w hvw
  dsimp only [Setting.partOr]
  rcases (hvw.part position name).cases with ⟨hv, hw⟩ | ⟨x, y, hv, hw, hxy⟩
  · rw [hv, hw]
  · rw [hv, hw]
    exact h x y hxy

theorem partOrNone (h : Respects read) (position : Nat) (name : String) :
    Respects fun v => v.partOrNone position name read :=
  (h.map some).partOr position name none

theorem required (h : Respects read) (position : Nat) (name : String) :
    Respects fun v => (v.part position name).bind read := by
  intro v w hvw
  dsimp only
  rcases (hvw.part position name).cases with ⟨hv, hw⟩ | ⟨x, y, hv, hw, hxy⟩
  · rw [hv, hw]
  · rw [hv, hw]
    exact h x y hxy

theorem asSection (h : Respects read) : Respects fun v => v.asSection read := by
  intro v w hvw
  have hread := h v w hvw
  dsimp only [Setting.asSection]
  rw [hread]
  rcases hvw.cases with ⟨ms, ns, rfl, rfl, -⟩ | rfl <;> rfl

end Respects

theorem respects_text? : Respects text? := .of_table fun _ => rfl

theorem respects_real? : Respects real? := .of_table fun _ => rfl

theorem respects_natural? (high : Nat) : Respects (natural? high) := .of_table fun _ => rfl

theorem respects_integer? (low high : Int) : Respects (integer? low high) := .of_table fun _ => rfl

theorem respects_uint64? : Respects uint64? := respects_natural? _

end Setting

/-! ### Sections -/

open Setting

theorem ServerSettings.respects_ofSetting? : Respects ServerSettings.ofSetting? :=
  .asSection <| (respects_text?.partOr 0 "host" _).bind fun _ =>
    ((respects_natural? _).partOr 1 "port" _).bind fun _ => .const _

theorem RetentionSettings.respects_ofSetting? : Respects RetentionSettings.ofSetting? :=
  .asSection <| (respects_uint64?.partOr 0 "max_records" _).bind fun _ =>
    (respects_uint64?.partOrNone 1 "max_age_secs").bind fun _ =>
    (respects_uint64?.partOr 2 "sweep_interval_secs" _).bind fun _ => .const _

theorem QuerySettings.respects_ofSetting? : Respects QuerySettings.ofSetting? :=
  .asSection <| (respects_uint64?.partOr 0 "default_limit" _).bind fun _ =>
    (respects_uint64?.partOr 1 "max_limit" _).bind fun _ => .const _

theorem ExportSettings.respects_ofSetting? : Respects ExportSettings.ofSetting? :=
  .asSection <| ((respects_integer? _ _).partOr 0 "utc_offset_minutes" _).bind fun _ =>
    (respects_text?.partOr 1 "timestamp_format" _).bind fun _ =>
    (respects_uint64?.partOr 2 "rows_per_chunk" _).bind fun _ => .const _

theorem IngestSettings.respects_ofSetting? : Respects IngestSettings.ofSetting? :=
  .asSection <| (respects_real?.partOr 0 "breakdown_tolerance_ms" _).bind fun _ => .const _

theorem StorageSettings.respects_ofSetting? : Respects StorageSettings.ofSetting? :=
  .asSection <| (respects_text?.required 0 "path").bind fun _ =>
    (respects_uint64?.partOr 1 "timeout_ms" _).bind fun _ =>
    (respects_uint64?.partOr 2 "queue_capacity" _).bind fun _ =>
    (respects_uint64?.partOr 3 "batch_size" _).bind fun _ =>
    ((respects_natural? _).partOrNone 4 "purge_after_days").bind fun _ => .const _

/-- **Settings that are alike are the same once they are read.** -/
theorem Settings.respects_ofSetting? : Respects Settings.ofSetting? :=
  (ServerSettings.respects_ofSetting?.partOr 0 "server" _).bind fun _ =>
    (RetentionSettings.respects_ofSetting?.partOr 1 "retention" _).bind fun _ =>
    (QuerySettings.respects_ofSetting?.partOr 2 "query" _).bind fun _ =>
    (ExportSettings.respects_ofSetting?.partOr 3 "export" _).bind fun _ =>
    (IngestSettings.respects_ofSetting?.partOr 4 "ingest" _).bind fun _ =>
    (StorageSettings.respects_ofSetting?.partOrNone 5 "storage").bind fun _ => .const _

/-! ### Settings that are texts -/

namespace Settings

/-- A setting that is any text: the path of the archive, or the host of the server. -/
inductive TextKey where
  | archivePath
  | host
  deriving DecidableEq, Repr

namespace TextKey

/-- Where the setting stands. -/
def path : TextKey → List String
  | archivePath => ["storage", "path"]
  | host => ["server", "host"]

/-- The value of the setting.  Without an archive there is no path of one. -/
def value? (c : Settings) : TextKey → Option String
  | archivePath => c.storage.map StorageSettings.path
  | host => some c.server.host

/-- The settings with another value for this one, and all else as it is.  If there was no archive,
the other settings of the archive that there is now have their usual values. -/
def change (s : String) (c : Settings) : TextKey → Settings
  | archivePath => { c with storage := some { c.storage.getD { path := "" } with path := s } }
  | host => { c with server := { c.server with host := s } }

theorem value?_change (k : TextKey) (s : String) (c : Settings) :
    k.value? (k.change s c) = some s := by
  cases k <;> rfl

end TextKey

end Settings

/-- What is read as a text is laid over anything as it is. -/
theorem Setting.layOn_of_text? {v : Setting} {s : String} (h : v.text? = some s)
    (below : Option Setting) : layOn below v = v := by
  cases v with
  | table ms => cases h
  | _ => rw [layOn]

theorem Setting.part_update (f : Option Setting → Setting) (name key : String) (position : Nat)
    (ms : List (String × Setting)) :
    (table (update name f ms)).part position key =
      if key = name then some (f (ms.lookup name)) else (table ms).part position key :=
  lookup_update name key f ms

section Part
variable {α : Type} {read : Setting → Option α} {name key : String} {f : Option Setting → Setting}

theorem Setting.partOr_update_self (position : Nat) (usual : α) (ms : List (String × Setting)) :
    (table (update name f ms)).partOr position name read usual = read (f (ms.lookup name)) := by
  unfold partOr
  rw [part_update, if_pos rfl]

theorem Setting.partOr_update_of_ne (h : key ≠ name) (position : Nat) (usual : α)
    (ms : List (String × Setting)) :
    (table (update name f ms)).partOr position key read usual =
      (table ms).partOr position key read usual := by
  unfold partOr
  rw [part_update, if_neg h]

end Part

namespace Settings.TextKey

variable {v w : Setting} {s t : String}

/-- Another path leaves the other settings of the archive. -/
theorem ofSetting?_path (hv : v.text? = some s) (hw : w.text? = some t)
    (ms : List (String × Setting)) :
    StorageSettings.ofSetting? (.table (update "path" (fun _ => v) ms)) =
      (StorageSettings.ofSetting? (.table (update "path" (fun _ => w) ms))).map
        fun c => { c with path := s } := by
  simp only [StorageSettings.ofSetting?, asSection, isSection, if_true, part_update, partOrNone,
    partOr_update_of_ne (show "timeout_ms" ≠ "path" by decide),
    partOr_update_of_ne (show "queue_capacity" ≠ "path" by decide),
    partOr_update_of_ne (show "batch_size" ≠ "path" by decide),
    partOr_update_of_ne (show "purge_after_days" ≠ "path" by decide),
    Option.bind_eq_bind, Option.bind_some, Option.map_bind, Function.comp_def, Option.pure_def,
    Option.map_some, hv, hw]

theorem ofSetting?_host (hv : v.text? = some s) (hw : w.text? = some t)
    (ms : List (String × Setting)) :
    ServerSettings.ofSetting? (.table (update "host" (fun _ => v) ms)) =
      (ServerSettings.ofSetting? (.table (update "host" (fun _ => w) ms))).map
        fun c => { c with host := s } := by
  simp only [ServerSettings.ofSetting?, asSection, isSection, if_true, partOr_update_self,
    partOr_update_of_ne (show "port" ≠ "host" by decide),
    Option.bind_eq_bind, Option.bind_some, Option.map_bind, Function.comp_def, Option.pure_def,
    Option.map_some, hv, hw]

/-- **Another value for a setting makes a difference nowhere else.** -/
theorem ofSetting?_put (k : TextKey) (hv : v.text? = some s) (hw : w.text? = some t)
    (root : Setting) :
    Settings.ofSetting? (put v k.path (some root)) =
      (Settings.ofSetting? (put w k.path (some root))).map fun c => k.change s c := by
  have hput (x : Setting) (hx : ∀ b, layOn b x = x) (name key : String) :
      put x [name, key] (some root) = .table (update name
        (fun below => .table (update key (fun _ => x) (membersBelow below))) root.members) := by
    have hlaid : put x [] = fun _ => x := funext hx
    show Setting.table (update name (fun below => .table (update key (put x []) _)) _) = _
    rw [hlaid]
    rfl
  have hputv := hput v (layOn_of_text? hv)
  have hputw := hput w (layOn_of_text? hw)
  cases k with
  | archivePath =>
    simp only [path, hputv, hputw, Settings.ofSetting?, partOrNone, partOr_update_self,
      partOr_update_of_ne (show "server" ≠ "storage" by decide),
      partOr_update_of_ne (show "retention" ≠ "storage" by decide),
      partOr_update_of_ne (show "query" ≠ "storage" by decide),
      partOr_update_of_ne (show "export" ≠ "storage" by decide),
      partOr_update_of_ne (show "ingest" ≠ "storage" by decide),
      Option.bind_eq_bind, Option.map_bind, Function.comp_def, Option.pure_def, Option.map_some,
      ofSetting?_path hv hw, Option.bind_map, Option.map_map]
    rfl
  | host =>
    simp only [path, hputv, hputw, Settings.ofSetting?, partOrNone, partOr_update_self,
      partOr_update_of_ne (show "storage" ≠ "server" by decide),
      partOr_update_of_ne (show "retention" ≠ "server" by decide),
      partOr_update_of_ne (show "query" ≠ "server" by decide),
      partOr_update_of_ne (show "export" ≠ "server" by decide),
      partOr_update_of_ne (show "ingest" ≠ "server" by decide),
      Option.bind_eq_bind, Option.map_bind, Function.comp_def, Option.pure_def, Option.map_some,
      ofSetting?_host hv hw, Option.bind_map]
    rfl

end Settings.TextKey

end OrderTelemetry
