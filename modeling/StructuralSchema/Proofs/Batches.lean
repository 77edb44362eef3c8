import StructuralSchema.Proofs.Statuses

/-!
# Batches of documents

The validation of several documents prints for each of them what the validation of that document
alone prints, in the order of the arguments. A document that cannot be read ends the batch: what
was printed before it stays, and nothing is counted. So does a document whose validation does not
end. Where no bound is set to the depth of values, that happens only to values that hold themselves.
-/

namespace StructuralSchema

theorem Text.stripStylesFrom_of_notMem {text : List Char} (h : '\x1b' ∉ text) (steps : ℕ) :
    stripStylesFrom steps text = text := by
  induction text generalizing steps with
  | nil => cases steps <;> rfl
  | cons c rest ih =>
      obtain ⟨hc, hrest⟩ : '\x1b' ≠ c ∧ '\x1b' ∉ rest := by simpa using h
      cases steps with
      | zero => rfl
      | succ steps =>
          rw [stripStylesFrom, ih hrest]
          intro _ hstyle
          exact absurd hstyle.symm hc

theorem escape_notMem_toDigits (k : ℕ) : '\x1b' ∉ Nat.toDigits 10 k := by
  intro h
  have hdigit := Nat.isDigit_of_mem_toDigits (by decide) (by decide) h
  cases hdigit

namespace CommandLine

theorem echo_failedText (failed all : ℕ) : echo (failedText failed all) = failedText failed all := by
  have hnotMem : '\x1b' ∉ (failedText failed all).toList := by
    simp [failedText, escape_notMem_toDigits]
  rw [echo, Text.stripStyles, Text.stripStylesFrom_of_notMem hnotMem, String.ofList_toList]

section Validate

variable {host : Host} {verbose : Bool} {c : Configuration} {s : Schema} {schemaName : String}
  {names : List String} {config : Option String}

/-- What is printed if the document is the only one to be validated. -/
def aloneLines (host : Host) (base : FilePath) (verbose : Bool) (schemaName : String)
    (config : Option String) (name : String) : List String :=
  (runCommand host base verbose (.validate schemaName [name] config)).out

theorem Prepared.validate (h : Prepared host (.validate schemaName names config) c s)
    (others : List String) : Prepared host (.validate schemaName others config) c s :=
  ⟨h.configuration, h.schema⟩

theorem checked_of_isJsonPath {disk : Disk} {name : String}
    (hpath : isJsonPath (.ofText name) = true)
    (hread : (readDocument disk (.ofText name)).toBool = true) (settings : Validation.Settings) :
    Checked disk s settings name := by
  cases hv : readDocument disk (.ofText name) with
  | error e =>
      rw [hv] at hread
      cases hread
  | ok v =>
      have hshort : disk.entry (.ofText name) ≠ .overlong := by
        intro hlong
        have hbreaks : DocumentBreaks disk (.ofText name) := .overlong hlong
        obtain ⟨e, -, he, -⟩ := hbreaks.readDocument_eq
        rw [hv] at he
        cases he
      have hjson := (holdsJson_of_isJsonPath hpath hshort).isJson v hv
      exact ⟨v, hv, Validation.warningsBeforeStop?_eq_none s settings hjson.isEndless_eq_false⟩

theorem out_planValidate (h : Prepared host (.validate schemaName names config) c s)
    (hall : ∀ n ∈ names, Checked host s c.settings n) :
    (planValidate host verbose schemaName names config).outcome.out =
      names.flatMap (documentLines host s c.settings) := by
  rw [planValidate_of_checked h hall]
  split_ifs <;>
    simp only [Failure.plan, Plan.outcome, List.filterMap_append, filterMap_out?_documentPrints,
      List.filterMap_cons, Print.out?, List.filterMap_nil, List.append_nil]

theorem aloneLines_eq_documentLines (base : FilePath)
    (h : Prepared host (.validate schemaName names config) c s) {name : String}
    (hname : Checked host s c.settings name) :
    aloneLines host base verbose schemaName config name = documentLines host s c.settings name := by
  have hout : aloneLines host base verbose schemaName config name =
      [name].flatMap (documentLines host s c.settings) :=
    out_planValidate (h.validate [name]) (by simpa using hname)
  rw [hout, List.flatMap_singleton]

theorem flatMap_aloneLines (base : FilePath)
    (h : Prepared host (.validate schemaName names config) c s) {front : List String}
    (hfront : ∀ n ∈ front, Checked host s c.settings n) :
    front.flatMap (aloneLines host base verbose schemaName config) =
      front.flatMap (documentLines host s c.settings) :=
  List.flatMap_congr fun n hn => aloneLines_eq_documentLines base h (hfront n hn)

/-- Where every document is read and validated to its end, each prints what it prints alone, and
the status tells whether all are valid. Where one cannot be read, or its validation does not end,
those before it print what they print alone, and nothing else is printed. -/
theorem runCommand_validate_eq_alone (base : FilePath) (verbose : Bool)
    (h : Prepared host (.validate schemaName names config) c s) :
    (∀ name v, readDocument host (.ofText name) = .ok v →
      (v.isEndless = false → Checked host s c.settings name) ∧
      (Checked host s c.settings name →
        aloneLines host base verbose schemaName config name =
          reportLines name (Validation.validate s c.settings v))) ∧
    ((∀ name ∈ names, Checked host s c.settings name) →
      (names.countP (isInvalid host s c.settings) = 0 →
        runCommand host base verbose (.validate schemaName names config) =
          { out := names.flatMap (aloneLines host base verbose schemaName config)
            err := names.flatMap (documentLog host verbose s c.settings)
            ending := .status 0 }) ∧
      (0 < names.countP (isInvalid host s c.settings) →
        runCommand host base verbose (.validate schemaName names config) =
          { out := names.flatMap (aloneLines host base verbose schemaName config)
            err := names.flatMap (documentLog host verbose s c.settings) ++
              [failedText (names.countP (isInvalid host s c.settings)) names.length]
            ending := .status 1 })) ∧
    ∀ front name rest, names = front ++ name :: rest →
      (∀ n ∈ front, Checked host s c.settings n) →
      (∀ reason, DocumentRefused host (.ofText name) reason →
        runCommand host base verbose (.validate schemaName names config) =
          { out := front.flatMap (aloneLines host base verbose schemaName config)
            err := front.flatMap (documentLog host verbose s c.settings) ++ [echo reason]
            ending := .status 1 }) ∧
      ∀ v warnings, readDocument host (.ofText name) = .ok v →
        Validation.warningsBeforeStop? s c.settings v = some warnings →
        runCommand host base verbose (.validate schemaName names config) =
          { out := front.flatMap (aloneLines host base verbose schemaName config)
            err := front.flatMap (documentLog host verbose s c.settings) ++
              logLines verbose (warnings.map .warning)
            ending := .breakdown .endless } := by
  refine ⟨fun name v hv => ⟨fun hends => ?_, fun hname => ?_⟩, fun hall => ?_,
    fun front name rest hnames hfront => ⟨fun reason hrefused => ?_, fun v warnings hv hstop => ?_⟩⟩
  · exact ⟨v, hv, Validation.warningsBeforeStop?_eq_none s c.settings hends⟩
  · rw [aloneLines_eq_documentLines base h hname]
    simp only [documentLines, hv]
  · rw [runCommand, planCommand, flatMap_aloneLines base h hall, planValidate_of_checked h hall]
    refine ⟨fun hvalid => ?_, fun hsome => ?_⟩
    · rw [if_pos hvalid, Plan.outcome, filterMap_out?_documentPrints,
        filterMap_err?_documentPrints]
    · rw [if_neg (Nat.ne_of_gt hsome), Failure.outcome_plan_message, filterMap_out?_documentPrints,
        filterMap_err?_documentPrints, echo_failedText]
  · obtain ⟨e, he, hreason⟩ := hrefused.readDocument_eq
    have hbatch := batch_of_error verbose hnames hfront he
    rw [runCommand, planCommand, flatMap_aloneLines base h hfront,
      planValidate_of_failure h (congrArg Batch.failure hbatch), hbatch, hreason,
      Failure.outcome_plan_message, filterMap_out?_documentPrints, filterMap_err?_documentPrints]
  · have hbatch := batch_of_stop verbose hnames hfront hv hstop
    rw [runCommand, planCommand, flatMap_aloneLines base h hfront,
      planValidate_of_failure h (congrArg Batch.failure hbatch), hbatch]
    simp only [Failure.plan, Plan.outcome, List.filterMap_append, filterMap_out?_documentPrints,
      filterMap_err?_documentPrints, Print.filterMap_out?_map_err, Print.filterMap_err?_map_err,
      List.append_nil]

end Validate

def mixedDisk : Disk where
  entry path :=
    if path.toText = "s.json" then .file (plainOctets "\x7b\"type\": \"null\"\x7d")
    else if path.toText = "a.json" then .file (plainOctets "null")
    else if path.toText = "b.json" then .file (plainOctets "\x7b\x7d")
    else .absent

theorem mixedDisk_validated :
    (∃ s, Prepared mixedDisk (.validate "s.json" ["b.json", "a.json", "b.json"] none)
        .default s) ∧
      runCommand mixedDisk (.ofText "/") false
          (.validate "s.json" ["b.json", "a.json", "b.json"] none) =
        { out := ["b.json: /: expected null found Object \x7b\x7d", "a.json: valid",
            "b.json: /: expected null found Object \x7b\x7d"]
          err := ["2 of 3 instance document(s) failed validation."]
          ending := .status 1 } ∧
      runCommand mixedDisk (.ofText "/") false
          (.validate "s.json" ["a.json", "b.json", "c.json", "a.json"] none) =
        { out := ["a.json: valid", "b.json: /: expected null found Object \x7b\x7d"]
          err := ["Document file not found: c.json"]
          ending := .status 1 } := by
  have halone : aloneLines mixedDisk (.ofText "/") false "s.json" none "a.json" =
      ["a.json: valid"] := by decide +kernel
  have hbroken : aloneLines mixedDisk (.ofText "/") false "s.json" none "b.json" =
      ["b.json: /: expected null found Object \x7b\x7d"] := by decide +kernel
  have hmissing : DocumentRefused mixedDisk (.ofText "c.json") "Document file not found: c.json" :=
    .missing (.inl rfl)
  have hcounted : (match schema mixedDisk "s.json" with
      | .ok s => some (["b.json", "a.json", "b.json"].countP (isInvalid mixedDisk s {}),
        documentLog mixedDisk false s {} "a.json", documentLog mixedDisk false s {} "b.json")
      | .error _ => none) = some (2, [], []) := by decide +kernel
  cases hs : schema mixedDisk "s.json" with
  | error f =>
      rw [hs] at hcounted
      cases hcounted
  | ok s =>
      rw [hs] at hcounted
      obtain ⟨hcount, hlogs⟩ := Prod.mk.inj (Option.some_inj.mp hcounted)
      obtain ⟨hloga, hlogb⟩ := Prod.mk.inj hlogs
      have hready (names : List String) :
          Prepared mixedDisk (.validate "s.json" names none) .default s :=
        ⟨rfl, "s.json", rfl, hs⟩
      have ha : Checked mixedDisk s {} "a.json" :=
        checked_of_isJsonPath (by decide +kernel) (by decide +kernel) _
      have hb : Checked mixedDisk s {} "b.json" :=
        checked_of_isJsonPath (by decide +kernel) (by decide +kernel) _
      obtain ⟨-, hall, -⟩ := runCommand_validate_eq_alone (.ofText "/") false
        (hready ["b.json", "a.json", "b.json"])
      obtain ⟨-, -, hfirst⟩ := runCommand_validate_eq_alone (.ofText "/") false
        (hready ["a.json", "b.json", "c.json", "a.json"])
      refine ⟨⟨s, hready _⟩, ?_, ?_⟩
      · have hinvalid : 0 < ["b.json", "a.json", "b.json"].countP (isInvalid mixedDisk s {}) := by
          rw [hcount]
          decide
        rw [(hall (by simp [Configuration.default, ha, hb])).2 hinvalid]
        simp only [Configuration.default, hcount, hloga, hlogb, List.flatMap_cons,
          List.flatMap_nil, halone, hbroken]
        rfl
      · have hfront := (hfirst ["a.json", "b.json"] "c.json" ["a.json"] rfl
          (by simp [Configuration.default, ha, hb])).1 _ hmissing
        rw [hfront]
        have hecho : echo "Document file not found: c.json" =
            "Document file not found: c.json" := by decide +kernel
        simp only [Configuration.default, hloga, hlogb, List.flatMap_cons, List.flatMap_nil,
          halone, hbroken, hecho]
        rfl

/-- A disk with a schema of arrays of nested objects, a document with an object that holds itself,
and an empty document. -/
def loopDisk : Disk where
  entry path :=
    if path.toText = "s.json" then
      .file (plainOctets ("\x7b\"type\":\"array\",\"items\":\x7b\"type\":\"object\"," ++
        "\"properties\":\x7b\"x\":\x7b\"$ref\":\"#/items\"\x7d\x7d\x7d\x7d"))
    else if path.toText = "loop.yaml" then .file (plainOctets "- &r\n  x: *r\n")
    else if path.toText = "ok.json" then .file (plainOctets "[]")
    else .absent

/-- The validation of a document that holds itself does not end, and nothing is said of the
document after it. -/
theorem loopDisk_breaks :
    ¬ ∀ (host : Host) (base : FilePath) (verbose : Bool) (schemaName : String)
        (names : List String) (config : Option String) (c : Configuration) (s : Schema),
      Prepared host (.validate schemaName names config) c s →
      (∀ name ∈ names, ∃ v, readDocument host (.ofText name) = .ok v) →
      (runCommand host base verbose (.validate schemaName names config)).out =
          names.flatMap (aloneLines host base verbose schemaName config) ∧
        ∃ code ∈ [0, 1],
          (runCommand host base verbose (.validate schemaName names config)).ending =
            .status code := by
  have hread (name : String)
      (h : (readDocument loopDisk (.ofText name)).toBool = true) :
      ∃ v, readDocument loopDisk (.ofText name) = .ok v := by
    cases hv : readDocument loopDisk (.ofText name) with
    | ok v => exact ⟨v, rfl⟩
    | error e =>
        rw [hv] at h
        cases h
  have hloop := hread "loop.yaml" (by decide +kernel)
  have hok := hread "ok.json" (by decide +kernel)
  have hfailure : (match schema loopDisk "s.json" with
      | .ok s => (batch loopDisk false s {} ["loop.yaml", "ok.json"]).failure
      | .error _ => none) = some (.breakdown .endless) := by decide +kernel
  intro h
  cases hs : schema loopDisk "s.json" with
  | error f =>
      rw [hs] at hfailure
      cases hfailure
  | ok s =>
      rw [hs] at hfailure
      have hready : Prepared loopDisk (.validate "s.json" ["loop.yaml", "ok.json"] none)
          .default s := ⟨rfl, "s.json", rfl, hs⟩
      obtain ⟨-, code, -, hcode⟩ := h loopDisk (.ofText "/") false _ _ _ _ _ hready
        (by simp [hloop, hok])
      rw [runCommand, planCommand, planValidate_of_failure hready hfailure] at hcode
      cases hcode

end CommandLine

end StructuralSchema
