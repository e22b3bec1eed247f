import OrderTelemetry.Proofs.Settings.Quoted
import OrderTelemetry.Proofs.Settings.Sections
import OrderTelemetry.Proofs.Settings.Spelling
import OrderTelemetry.Settings.Load

/-! # Texts from the environment

A setting that is a text can stand in the file or in a variable of the environment.  In the file it
is taken as it stands.  In a variable it is taken for a truth value or a number if it can be, and
written anew, so it comes out respelled.  Nothing else depends on which of the two says it.

* `TextKey.SetAlone.layer_alike`: a variable that nothing else interferes with acts like a value
  that is laid over all the other sources.
* `TextKey.load_cases`: either way leads to the same fault, or to settings that differ in the
  spelling.
* `TextKey.load_variable`: the two ways compared, for any other sources. -/

namespace OrderTelemetry

open Setting

/-! ### The environment -/

namespace DotEnv

/-- A variable of the environment stays whatever a file with variables says. -/
theorem mem_extend {p : String × String} (n : Nat) {env : Environment} (h : p ∈ env)
    (seen : Environment) (s : List Char) : p ∈ extend n env seen s := by
  induction n generalizing env seen s with
  | zero => exact h
  | succ n ih =>
    unfold extend
    dsimp only
    split
    · exact h
    · split
      · exact h
      · exact ih h _ _
      · refine ih ?_ _ _
        unfold Environment.withMissing
        split_ifs
        · exact h
        · exact List.mem_append_left _ h

theorem mem_load {p : String × String} {env : Environment} (h : p ∈ env) (text : String) :
    p ∈ load env text := mem_extend _ h _ _

example : load [("A", "1")] "A=2\nexport B = \"x $A\\n-\" # note\nC\nD=1" =
    [("A", "1"), ("B", "x 1\\n-")] := by decide +kernel

end DotEnv

namespace Settings

theorem Sources.mem_fullEnvironment {S : Sources} {p : String × String} (h : p ∈ S.environment) :
    p ∈ S.fullEnvironment := by
  unfold fullEnvironment
  cases S.dotEnv with
  | none => exact h
  | some text => exact DotEnv.mem_load h text

/-- What a file in TOML says, nothing if there is no file. -/
def membersOfFile (file : Option String) : Option (List (String × Setting)) :=
  match file with
  | none => some []
  | some document => Toml.parse? document

/-- The members of a document, laid at the paths that their names stand for. -/
def laid (ms : List (String × Setting)) : Setting := (Setting.table []).layer ms

section Members
variable {S : Sources} {ms : List (String × Setting)} (h : membersOfFile S.file = some ms)
include h

theorem written_eq : S.written = .ok ((laid ms).layer S.fullEnvironment.settings) := by
  unfold Sources.written
  unfold membersOfFile at h
  dsimp only
  cases hfile : S.file with
  | none =>
    rw [hfile] at h
    cases h
    rfl
  | some document =>
    rw [hfile] at h
    dsimp only at h ⊢
    rw [h]
    rfl

theorem load_eq :
    load S = (ofSetting? ((laid ms).layer S.fullEnvironment.settings)).elim
      (.error (.config "a configuration value has the wrong type or is missing")) validated := by
  unfold load
  rw [written_eq h]
  dsimp only [bind, Except.bind]
  cases ofSetting? ((laid ms).layer S.fullEnvironment.settings) <;> rfl

end Members

namespace TextKey

/-- The variable that stands for the setting. -/
def variableName : TextKey → String
  | archivePath => "LATENCY_STORAGE__PATH"
  | host => "LATENCY_SERVER__HOST"

/-- Whether a variable stands for the setting, for something in it, or for the section that it
belongs to. -/
def touchedBy (k : TextKey) (name : String) : Bool :=
  (Environment.settingName? name).any fun key => !apart (pathOf key) k.path

/-- A variable of the environment gives the setting a text, and nothing else in the environment or
in the file with variables interferes. -/
structure SetAlone (k : TextKey) (s : String) (S : Sources) : Prop where
  mem : (k.variableName, s) ∈ S.environment
  alone : ∀ p ∈ S.fullEnvironment, k.touchedBy p.1 = true → p = (k.variableName, s)

/-- A document says what a file says and gives the setting a text. -/
def SetInFile (k : TextKey) (s : String) (file : Option String) (document : String) : Prop :=
  ∃ ms ns, membersOfFile file = some ms ∧ Toml.parse? document = some ns ∧
    Alike (laid ns) (put (.text s) k.path (some (laid ms)))

/-- The sources with a document in place of the file, and without the variable for the setting. -/
def moved (k : TextKey) (S : Sources) (document : String) : Sources where
  file := some document
  environment := S.fullEnvironment.filter fun p => !k.touchedBy p.1
  dotEnv := none

variable {k : TextKey} {s : String}

theorem pathOf_settingName (k : TextKey) :
    ∃ key, Environment.settingName? k.variableName = some key ∧ pathOf key = k.path := by
  cases k
  · exact ⟨"storage.path", by decide +kernel, by decide +kernel⟩
  · exact ⟨"server.host", by decide +kernel, by decide +kernel⟩

theorem apart_path (k : TextKey) : apart k.path k.path = false := by
  cases k <;> decide

/-- The settings of an environment that do not meet the path are those of the variables that do not
touch the setting. -/
theorem beside_settings (k : TextKey) (e : Environment) :
    beside k.path e.settings = Environment.settings (e.filter fun p => !k.touchedBy p.1) := by
  unfold beside Environment.settings
  rw [List.filter_filterMap, List.filterMap_filter]
  refine congrArg (List.filterMap · e) (funext fun p => ?_)
  unfold touchedBy
  dsimp only
  cases Environment.settingName? p.1 with
  | none => rfl
  | some key => cases h : apart (pathOf key) k.path <;> simp [h]

section Alone
variable {S : Sources} (h : k.SetAlone s S)
include h

/-- What the variable stands for is all that meets the path. -/
theorem SetAlone.onlyAt :
    OnlyAt k.path (Environment.settingOf s) S.fullEnvironment.settings := by
  obtain ⟨ownKey, hname, hpath⟩ := k.pathOf_settingName
  intro entry hentry
  obtain ⟨p, hp, hsome⟩ := List.mem_filterMap.mp hentry
  obtain ⟨key, hkey, rfl⟩ := Option.map_eq_some_iff.mp hsome
  by_cases hapart : apart (pathOf key) k.path = true
  · exact .inl hapart
  · have htouched : k.touchedBy p.1 = true := by
      unfold touchedBy
      rw [hkey]
      simpa using hapart
    rw [h.alone p hp htouched] at hkey ⊢
    rw [hname] at hkey
    cases hkey
    exact .inr ⟨hpath, rfl⟩

theorem SetAlone.meets :
    ∃ entry ∈ S.fullEnvironment.settings, apart (pathOf entry.1) k.path = false := by
  obtain ⟨key, hname, hpath⟩ := k.pathOf_settingName
  refine ⟨(key, Environment.settingOf s), ?_, ?_⟩
  · refine List.mem_filterMap.mpr ⟨_, Sources.mem_fullEnvironment h.mem, ?_⟩
    dsimp only
    rw [hname]
    rfl
  · rw [hpath, k.apart_path]

/-- **A variable that nothing interferes with lays its value over everything else.** -/
theorem SetAlone.layer_alike (root : Setting) :
    Alike (root.layer S.fullEnvironment.settings)
      (put (Environment.settingOf s) k.path (some (root.layer
        (Environment.settings (S.fullEnvironment.filter fun p => !k.touchedBy p.1))))) := by
  rw [← beside_settings]
  exact layer_mem_alike (layOn_of_text? (Environment.text?_settingOf s)) root h.onlyAt h.meets

end Alone

/-- A text in a file is laid over everything else if no variable touches the setting. -/
theorem layer_laid_alike {e : Environment} {ms ns : List (String × Setting)}
    (he : ∀ p ∈ e, k.touchedBy p.1 = false)
    (h : Alike (laid ns) (put (.text s) k.path (some (laid ms)))) :
    Alike ((laid ns).layer e.settings)
      (put (.text s) k.path (some ((laid ms).layer e.settings))) := by
  have hall : e.filter (fun p => !k.touchedBy p.1) = e :=
    List.filter_eq_self.mpr fun p hp => by rw [he p hp]; rfl
  have hbeside : beside k.path e.settings = e.settings := by rw [beside_settings, hall]
  have honly : OnlyAt k.path (.text s) e.settings := fun entry hentry => by
    rw [← hbeside] at hentry
    exact .inl (List.mem_filter.mp hentry).2
  have hlast := layer_put_alike (fun _ => rfl) (laid ms) honly
  rw [hbeside] at hlast
  exact (h.layer _).trans hlast

/-! ### Checks -/

/-- No check tells two texts apart that are not blank. -/
theorem flaw?_change {c : Settings} {t : String} (hs : Text.blank s = false)
    (ht : Text.blank t = false) (hc : k.value? c = some s) :
    (k.change t c).flaw? = c.flaw? := by
  cases k with
  | host => rfl
  | archivePath =>
    obtain ⟨storage, hstorage, rfl⟩ := Option.map_eq_some_iff.mp hc
    have hflaw : ({ storage with path := t } : StorageSettings).flaw? = storage.flaw? := by
      unfold StorageSettings.flaw?
      simp only [hs, ht]
    unfold change flaw?
    dsimp only
    rw [hstorage]
    simp only [Option.getD_some, Option.bind_some, hflaw]

/-! ### Loading -/

/-- A text that is laid last is the one that is read. -/
theorem value?_of_put {root : Setting} {c : Settings}
    (h : Settings.ofSetting? (put (.text s) k.path (some root)) = some c) :
    k.value? c = some s := by
  have hself := k.ofSetting?_put (v := .text s) (w := .text s) rfl rfl root
  rw [h] at hself
  rw [Option.some.inj hself]
  exact k.value?_change s c

/-- Settings with the text that they have already. -/
theorem change_self {c : Settings} (h : k.value? c = some s) : k.change s c = c := by
  cases k with
  | host => cases h; rfl
  | archivePath =>
    obtain ⟨storage, hstorage, rfl⟩ := Option.map_eq_some_iff.mp h
    unfold change
    dsimp only
    rw [hstorage]
    cases c
    cases hstorage
    rfl

/-- Of two changes the last one counts. -/
theorem change_change (k : TextKey) (s t : String) (c : Settings) :
    k.change t (k.change s c) = k.change t c := by
  cases k <;> rfl

section Ways
variable (hs : Text.blank s = false) {S : Sources} (hS : k.SetAlone s S) {document : String}
  (hdocument : k.SetInFile s S.file document)
include hs hS hdocument

/-- What comes of the two ways: settings with the text as it stands, and the same settings with the
text respelled, or the same fault. -/
theorem load_cases :
    (∃ c, k.value? c = some s ∧ load (k.moved S document) = .ok c ∧
        load S = .ok (k.change (Environment.respelled s) c)) ∨
      ∃ f, load (k.moved S document) = .error f ∧ load S = .error f := by
  obtain ⟨ms, ns, hms, hns, halike⟩ := hdocument
  have hleft : ∀ p ∈ (k.moved S document).environment, k.touchedBy p.1 = false := fun p hp => by
    simpa using (List.mem_filter.mp hp).2
  -- both ways lay one value over the same settings
  let others := (laid ms).layer (k.moved S document).environment.settings
  have hvariable : Settings.ofSetting? ((laid ms).layer S.fullEnvironment.settings) =
      (Settings.ofSetting? (put (.text s) k.path (some others))).map
        fun c => k.change (Environment.respelled s) c :=
    (respects_ofSetting? _ _ (hS.layer_alike (laid ms))).trans
      (k.ofSetting?_put (Environment.text?_settingOf s) rfl others)
  have hfile : Settings.ofSetting? ((laid ns).layer (k.moved S document).fullEnvironment.settings) =
      Settings.ofSetting? (put (.text s) k.path (some others)) :=
    respects_ofSetting? _ _ (layer_laid_alike hleft halike)
  rw [load_eq (S := k.moved S document) hns, load_eq hms, hvariable, hfile]
  cases hread : Settings.ofSetting? (put (.text s) k.path (some others)) with
  | none => exact .inr ⟨_, rfl, rfl⟩
  | some c =>
    have hvalue := value?_of_put hread
    have hflaw := flaw?_change hs (Environment.blank_respelled hs) hvalue
    dsimp only [Option.map_some, Option.elim_some]
    unfold validated
    rw [hflaw]
    cases c.flaw? with
    | some f => exact .inr ⟨_, rfl, rfl⟩
    | none => exact .inl ⟨c, hvalue, rfl, rfl⟩

/-- The file gives the text as it stands. -/
theorem value?_of_load {c : Settings} (h : load (k.moved S document) = .ok c) :
    k.value? c = some s := by
  rcases load_cases hs hS hdocument with ⟨other, hvalue, hfile, -⟩ | ⟨f, hfile, -⟩
  · rw [hfile] at h
    cases h
    exact hvalue
  · rw [hfile] at h
    cases h

/-- The variable gives what the file gives, but for the spelling of the text. -/
theorem load_eq_map :
    load S = (load (k.moved S document)).map fun c => k.change (Environment.respelled s) c := by
  rcases load_cases hs hS hdocument with ⟨c, -, hfile, hvariable⟩ | ⟨f, hfile, hvariable⟩
  · rw [hfile, hvariable]
    rfl
  · rw [hfile, hvariable]
    rfl

theorem load_eq_of_standard (h : Environment.Standard s) :
    load S = load (k.moved S document) := by
  rcases load_cases hs hS hdocument with ⟨c, hvalue, hfile, hvariable⟩ | ⟨f, hfile, hvariable⟩
  · rw [hfile, hvariable, (Environment.respelled_eq_iff s).mpr h, change_self hvalue]
  · rw [hfile, hvariable]

/-- If there are settings, the two ways give the same ones for nothing but standard texts. -/
theorem standard_of_load_eq {c : Settings} (hc : load (k.moved S document) = .ok c)
    (h : load S = load (k.moved S document)) : Environment.Standard s := by
  have hvalue := value?_of_load hs hS hdocument hc
  have hsame : k.change (Environment.respelled s) c = c := by
    have hmap := load_eq_map hs hS hdocument
    rw [h, hc] at hmap
    exact (Except.ok.inj hmap).symm
  have hrespelled : some (Environment.respelled s) = some s :=
    calc some (Environment.respelled s)
        = k.value? (k.change (Environment.respelled s) c) := (k.value?_change _ c).symm
      _ = k.value? c := by rw [hsame]
      _ = some s := hvalue
  exact (Environment.respelled_eq_iff s).mp (Option.some.inj hrespelled)

end Ways

/-! ### Nothing else -/

/-- The section that the setting belongs to. -/
def category : TextKey → String
  | archivePath => "storage"
  | host => "server"

/-- The name of the setting in its section. -/
def name : TextKey → String
  | archivePath => "path"
  | host => "host"

/-- A document with nothing but a text for the setting. -/
def document (k : TextKey) (s : String) : String := Toml.assigning k.category k.name s

theorem parse?_document (k : TextKey) (s : String) :
    Toml.parse? (k.document s) = some [(k.category, .table [(k.name, .text s)])] := by
  cases k <;> exact Toml.parse?_assigning (by decide) (by decide) s

theorem laid_document (k : TextKey) (s : String) :
    laid [(k.category, .table [(k.name, .text s)])] =
      .table [(k.category, .table [(k.name, .text s)])] := by
  have hpath : pathOf k.category = [k.category] := by cases k <;> decide +kernel
  unfold laid
  rw [layer_cons, hpath]
  rfl

theorem flaw?_change_standard (k : TextKey) (hs : Text.blank s = false) :
    (k.change s {}).flaw? = none := by
  have hsample : (k.change "a" {}).flaw? = none := by cases k <;> decide +kernel
  rw [← k.change_change "a" s {}, flaw?_change (by decide +kernel) hs (k.value?_change "a" {}),
    hsample]

theorem load_document (hs : Text.blank s = false) :
    load { file := some (k.document s), environment := [], dotEnv := none } =
      .ok (k.change s {}) := by
  have hread : Settings.ofSetting? (.table [(k.category, .table [(k.name, .text s)])]) =
      some (k.change s {}) := by
    cases k <;> rfl
  have hload := load_eq (S := ⟨some (k.document s), [], none⟩) (k.parse?_document s)
  rw [laid_document] at hload
  refine hload.trans ?_
  show (Settings.ofSetting? (.table [(k.category, .table [(k.name, .text s)])])).elim _ _ = _
  rw [hread, Option.elim_some]
  unfold validated
  rw [k.flaw?_change_standard hs]

/-- The sources with nothing but the variable. -/
def lone (k : TextKey) (s : String) : Sources where
  file := none
  environment := [(k.variableName, s)]
  dotEnv := none

theorem touchedBy_variableName (k : TextKey) : k.touchedBy k.variableName = true := by
  cases k <;> decide +kernel

theorem setAlone_lone (k : TextKey) (s : String) : k.SetAlone s (k.lone s) where
  mem := List.mem_cons_self
  alone _ hp _ := List.mem_singleton.mp hp

theorem setInFile_document (k : TextKey) (s : String) : k.SetInFile s none (k.document s) := by
  refine ⟨[], _, rfl, k.parse?_document s, ?_⟩
  rw [laid_document]
  cases k <;> exact .refl _

theorem moved_lone (k : TextKey) (s : String) :
    k.moved (k.lone s) (k.document s) =
      { file := some (k.document s), environment := [], dotEnv := none } := by
  have hnone : (k.lone s).fullEnvironment.filter (fun p => !k.touchedBy p.1) = [] :=
    List.filter_cons_of_neg (by simp [k.touchedBy_variableName])
  unfold moved
  rw [hnone]

theorem load_lone (hs : Text.blank s = false) :
    load (k.lone s) = .ok (k.change (Environment.respelled s) {}) := by
  rw [load_eq_map hs (k.setAlone_lone s) (k.setInFile_document s), moved_lone, load_document hs]
  exact congrArg Except.ok (k.change_change s _ {})

/-- **A text from a variable comes out respelled, and one from a file as it stands.**  With nothing
else both ways give the usual settings but for that text.  Whatever else the sources say, the two
ways find the same fault, or settings that differ in no more than the spelling; they are the same
settings if and only if the text is standard, which it is if it has a character that no number and
no truth value has. -/
theorem load_variable (k : TextKey) {s : String} (hs : Text.blank s = false) :
    (load { file := some (k.document s), environment := [], dotEnv := none } =
        .ok (k.change s {}) ∧
      load (k.lone s) = .ok (k.change (Environment.respelled s) {})) ∧
    ∀ S document, k.SetAlone s S → k.SetInFile s S.file document →
      let file := k.moved S document
      (∀ c, load file = .ok c → k.value? c = some s) ∧
      load S = (load file).map (fun c => k.change (Environment.respelled s) c) ∧
      ((∃ c, load file = .ok c) → (load S = load file ↔ Environment.Standard s)) ∧
      ((∃ c ∈ s.toList, Decimal.isNumeral c = false) → load S = load file) := by
  refine ⟨⟨load_document hs, load_lone hs⟩, fun S document hS hdocument => ?_⟩
  refine ⟨fun c => value?_of_load hs hS hdocument, load_eq_map hs hS hdocument, ?_, ?_⟩
  · rintro ⟨c, hc⟩
    exact ⟨standard_of_load_eq hs hS hdocument hc, load_eq_of_standard hs hS hdocument⟩
  · rintro ⟨c, hmem, hc⟩
    exact load_eq_of_standard hs hS hdocument (Environment.standard_of_mem hmem hc)

/-- Sources where a variable gives the path of the archive as a number. -/
def numberedArchive : Sources where
  file := none
  environment := [("LATENCY_SERVER__PORT", "8080"), ("LATENCY_STORAGE__PATH", "007")]
  dotEnv := some "LATENCY_QUERY__MAX_LIMIT=500\n"

/-- The path loses its zeros in the variable and keeps them in the file. -/
theorem load_numberedArchive :
    let c : Settings :=
      { server := { port := 8080 }
        query := { maxLimit := 500 }
        storage := some { path := "007" } }
    load (archivePath.moved numberedArchive (archivePath.document "007")) = .ok c ∧
      load numberedArchive = .ok { c with storage := some { path := "7" } } ∧
      ¬ Environment.Standard "007" := by
  have hS : archivePath.SetAlone "007" numberedArchive := ⟨by decide, by decide +kernel⟩
  have hdocument : archivePath.SetInFile "007" numberedArchive.file (archivePath.document "007") :=
    archivePath.setInFile_document "007"
  obtain ⟨-, hload⟩ := archivePath.load_variable (s := "007") (by decide +kernel)
  obtain ⟨-, hvariable, hstandard, -⟩ := hload numberedArchive _ hS hdocument
  intro c
  have hfile : load (archivePath.moved numberedArchive (archivePath.document "007")) = .ok c := by
    decide +kernel
  have hrespelled : Environment.respelled "007" = "7" := by decide +kernel
  rw [hfile, hrespelled] at hvariable
  refine ⟨hfile, hvariable, fun h => ?_⟩
  have hsame := (hstandard ⟨c, hfile⟩).mpr h
  rw [hvariable, hfile] at hsame
  exact absurd hsame (by decide +kernel)

end TextKey

end Settings

end OrderTelemetry
