import StructuralSchema.Proofs.JsonForm
import StructuralSchema.Proofs.Refusal

/-!
# How commands end

A command looks at its configuration first, then at its schema, and then at its documents one
after the other. The first of them that is refused or breaks decides how the command ends; if
all can be used it is carried out. The reason for which a command is refused is the last text on
the error stream.
-/

namespace StructuralSchema.CommandLine

def Command.config? : Command → Option String
  | .generateConfig _ => none
  | .inspect _ => none
  | .resolve _ config _ => config
  | .validate _ _ config => config

def Command.schema? : Command → Option String
  | .generateConfig _ => none
  | .inspect schemaName => some schemaName
  | .resolve schemaName _ _ => some schemaName
  | .validate schemaName _ _ => some schemaName

def Command.documents : Command → List String
  | .validate _ names _ => names
  | _ => []

/-- The command has got its configuration and its schema. -/
structure Prepared (host : Host) (command : Command) (c : Configuration) (s : Schema) : Prop where
  configuration : configuration host command.config? = .ok c
  schema : ∃ name, command.schema? = some name ∧ schema host name = .ok s

/-- The document is read and validated to its end. -/
def Checked (host : Host) (s : Schema) (settings : Validation.Settings) (name : String) : Prop :=
  ∃ v, readDocument host (.ofText name) = .ok v ∧
    Validation.warningsBeforeStop? s settings v = none

/-- The document is read and is not valid. -/
def isInvalid (host : Host) (s : Schema) (settings : Validation.Settings) (name : String) : Bool :=
  match readDocument host (.ofText name) with
  | .ok v => !(Validation.validate s settings v).isOk
  | .error _ => false

def documentLines (host : Host) (s : Schema) (settings : Validation.Settings) (name : String) :
    List String :=
  match readDocument host (.ofText name) with
  | .ok v => reportLines name (Validation.validate s settings v)
  | .error _ => []

def documentLog (host : Host) (verbose : Bool) (s : Schema) (settings : Validation.Settings)
    (name : String) : List String :=
  match readDocument host (.ofText name) with
  | .ok v => logLines verbose (Validation.validate s settings v).log
  | .error _ => []

def documentPrints (host : Host) (verbose : Bool) (s : Schema) (settings : Validation.Settings)
    (name : String) : List Print :=
  (documentLog host verbose s settings name).map .err ++
    (documentLines host s settings name).map .out

/-- Nothing can be written in what lies there as in a directory. -/
inductive NoPlace : Entry → SystemFault → Prop
  | absent : NoPlace .absent .noSuchFile
  | overlong : NoPlace .overlong .nameTooLong
  | blocked : NoPlace .blocked .notDirectory
  | file (octets : List UInt8) : NoPlace (.file octets) .notDirectory

inductive OutputRefused (disk : Disk) (base path : FilePath) : String → Prop
  | longName (h : disk.entry path = .overlong) :
      OutputRefused disk base path (SystemFault.nameTooLong.message path)
  | present (h : (disk.entry path).isPresent = true) :
      OutputRefused disk base path
        ("Configuration file already exists: " ++ (path.absolute base).toText)
  | parent {fault : SystemFault} (h : disk.entry path = .absent ∨ disk.entry path = .blocked)
      (hparent : NoPlace (disk.entry path.parent) fault) :
      OutputRefused disk base path (fault.message path)

/-- A file of the command is no configuration, schema or document, for this reason. -/
inductive FileRefused (host : Host) (command : Command) : String → Prop
  | configuration {name reason : String} (hname : command.config? = some name)
      (h : ConfigurationRefused host (.ofText name) reason) : FileRefused host command reason
  | schema {name reason : String} (hname : command.schema? = some name)
      (h : SchemaRefused host (.ofText name) reason) : FileRefused host command reason
  | document {name reason : String} (hname : name ∈ command.documents)
      (h : DocumentRefused host (.ofText name) reason) : FileRefused host command reason

/-- The command is refused for this reason: it is that of the first of its files that is
refused, or else there is no place for its output, or the reference leads nowhere, or some of
the documents are not valid. -/
inductive Refused (host : Host) (base : FilePath) (command : Command) : String → Prop
  | configuration {name reason : String} (hname : command.config? = some name)
      (h : ConfigurationRefused host (.ofText name) reason) : Refused host base command reason
  | schema {c : Configuration} {name reason : String}
      (hc : CommandLine.configuration host command.config? = .ok c)
      (hname : command.schema? = some name) (h : SchemaRefused host (.ofText name) reason) :
      Refused host base command reason
  | document {c : Configuration} {s : Schema} {front rest : List String} {name reason : String}
      (hready : Prepared host command c s) (hnames : command.documents = front ++ name :: rest)
      (hfront : ∀ n ∈ front, Checked host s c.settings n)
      (h : DocumentRefused host (.ofText name) reason) : Refused host base command reason
  | output {name reason : String} (hcommand : command = .generateConfig name)
      (h : OutputRefused host.toDisk base (.ofText name) reason) : Refused host base command reason
  | reference {c : Configuration} {s : Schema} {schemaName reference : String}
      {config : Option String} {e : Reference.Error}
      (hcommand : command = .resolve schemaName config reference)
      (hready : Prepared host command c s)
      (he : Reference.dereference s c.settings.maxReferenceDepth reference = .error e) :
      Refused host base command e.message
  | invalid {c : Configuration} {s : Schema} (hready : Prepared host command c s)
      (hall : ∀ n ∈ command.documents, Checked host s c.settings n)
      (hsome : 0 < command.documents.countP (isInvalid host s c.settings)) :
      Refused host base command
        (failedText (command.documents.countP (isInvalid host s c.settings))
          command.documents.length)

/-- The command breaks down: the first of its files that is not used is one with which the
program breaks, or the validation of a document has to stop, or the node to be printed holds
what JSON cannot write. -/
inductive Breaks (host : Host) (command : Command) : Prop
  | configuration {name : String} (hname : command.config? = some name)
      (h : ConfigurationBreaks host (.ofText name))
  | schema {c : Configuration} {name : String}
      (hc : CommandLine.configuration host command.config? = .ok c)
      (hname : command.schema? = some name) (h : SchemaBreaks host (.ofText name))
  | document {c : Configuration} {s : Schema} {front rest : List String} {name : String}
      (hready : Prepared host command c s) (hnames : command.documents = front ++ name :: rest)
      (hfront : ∀ n ∈ front, Checked host s c.settings n)
      (h : DocumentBreaks host (.ofText name))
  | validation {c : Configuration} {s : Schema} {front rest : List String} {name : String}
      {v : Value} {warnings : List String} (hready : Prepared host command c s)
      (hnames : command.documents = front ++ name :: rest)
      (hfront : ∀ n ∈ front, Checked host s c.settings n)
      (hv : readDocument host (.ofText name) = .ok v)
      (h : Validation.warningsBeforeStop? s c.settings v = some warnings)
  | printing {c : Configuration} {s : Schema} {schemaName reference : String}
      {config : Option String} {found : Option Node}
      (hcommand : command = .resolve schemaName config reference)
      (hready : Prepared host command c s)
      (hfound : Reference.dereference s c.settings.maxReferenceDepth reference = .ok found)
      (h : ¬ (Value.obj (resolvedMembers found)).HasJsonForm)

/-! ## Batches -/

section Batches

variable {host : Host} {verbose : Bool} {s : Schema} {settings : Validation.Settings}

/-- Documents that are read and validated to the end print and log each for itself, and leave
the failure to those after them. -/
theorem batch_append (verbose : Bool) {front : List String}
    (hfront : ∀ n ∈ front, Checked host s settings n) (rest : List String) :
    batch host verbose s settings (front ++ rest) =
      { prints := front.flatMap (documentPrints host verbose s settings) ++
          (batch host verbose s settings rest).prints
        failed := front.countP (isInvalid host s settings) +
          (batch host verbose s settings rest).failed
        failure := (batch host verbose s settings rest).failure } := by
  induction front with
  | nil => simp
  | cons name front ih =>
      obtain ⟨⟨v, hv, hstop⟩, hfront⟩ := List.forall_mem_cons.mp hfront
      have hprints : documentPrints host verbose s settings name =
          reportPrints verbose name (Validation.validate s settings v) := by
        simp only [documentPrints, documentLines, documentLog, hv, reportPrints]
      have hinvalid : isInvalid host s settings name = !(Validation.validate s settings v).isOk := by
        simp only [isInvalid, hv]
      rw [List.cons_append, batch, hv]
      simp only [hstop, ih hfront, List.flatMap_cons, hprints, List.append_assoc,
        List.countP_cons, hinvalid, Batch.mk.injEq, true_and, and_true]
      cases (Validation.validate s settings v).isOk with
      | true => simp
      | false =>
          simp only [Bool.false_eq_true, if_false, Bool.not_false, if_true]
          omega

theorem batch_of_checked (verbose : Bool) {names : List String}
    (h : ∀ n ∈ names, Checked host s settings n) :
    batch host verbose s settings names =
      { prints := names.flatMap (documentPrints host verbose s settings)
        failed := names.countP (isInvalid host s settings) } := by
  have hall := batch_append verbose h []
  simpa only [List.append_nil, batch, Nat.add_zero] using hall

section First

variable {names front rest : List String} {name : String}

theorem batch_of_error (verbose : Bool) (hnames : names = front ++ name :: rest)
    (hfront : ∀ n ∈ front, Checked host s settings n) {e : LoadError}
    (he : readDocument host (.ofText name) = .error e) :
    batch host verbose s settings names =
      { prints := front.flatMap (documentPrints host verbose s settings)
        failed := front.countP (isInvalid host s settings)
        failure := some (loadFailure e) } := by
  rw [hnames, batch_append verbose hfront, batch, he]
  simp only [List.append_nil, Nat.add_zero]

theorem batch_of_stop (verbose : Bool) (hnames : names = front ++ name :: rest)
    (hfront : ∀ n ∈ front, Checked host s settings n) {v : Value} {warnings : List String}
    (hv : readDocument host (.ofText name) = .ok v)
    (h : Validation.warningsBeforeStop? s settings v = some warnings) :
    batch host verbose s settings names =
      { prints := front.flatMap (documentPrints host verbose s settings) ++
          (logLines verbose (warnings.map .warning)).map .err
        failed := front.countP (isInvalid host s settings)
        failure := some (.breakdown .endless) } := by
  rw [hnames, batch_append verbose hfront, batch, hv]
  simp only [h, Nat.add_zero]

end First

section Streams

variable (names : List String)

theorem filterMap_out?_documentPrints :
    (names.flatMap (documentPrints host verbose s settings)).filterMap Print.out? =
      names.flatMap (documentLines host s settings) := by
  induction names with
  | nil => rfl
  | cons name names ih =>
      simp only [List.flatMap_cons, List.filterMap_append, ih, documentPrints,
        Print.filterMap_out?_map_err, Print.filterMap_out?_map_out, List.nil_append]

theorem filterMap_err?_documentPrints :
    (names.flatMap (documentPrints host verbose s settings)).filterMap Print.err? =
      names.flatMap (documentLog host verbose s settings) := by
  induction names with
  | nil => rfl
  | cons name names ih =>
      simp only [List.flatMap_cons, List.filterMap_append, ih, documentPrints,
        Print.filterMap_err?_map_err, Print.filterMap_err?_map_out, List.append_nil]

end Streams

/-- Either all documents are read and validated to their ends, or there is a first that is
not. -/
theorem checked_or_first (host : Host) (s : Schema) (settings : Validation.Settings)
    (names : List String) :
    (∀ n ∈ names, Checked host s settings n) ∨
      ∃ front name rest, names = front ++ name :: rest ∧
        (∀ n ∈ front, Checked host s settings n) ∧ ¬ Checked host s settings name := by
  induction names with
  | nil => exact .inl (by simp)
  | cons name names ih =>
      by_cases hname : Checked host s settings name
      · rcases ih with hall | ⟨front, other, rest, rfl, hfront, hother⟩
        · exact .inl (List.forall_mem_cons.mpr ⟨hname, hall⟩)
        · exact .inr ⟨name :: front, other, rest, rfl,
            List.forall_mem_cons.mpr ⟨hname, hfront⟩, hother⟩
      · exact .inr ⟨[], name, names, rfl, by simp, hname⟩

theorem documentRefused_or_breaks_of_not_checked {name : String} (h : ¬ Checked host s settings name) :
    (∃ reason, DocumentRefused host (.ofText name) reason) ∨
      DocumentBreaks host (.ofText name) ∨
      ∃ v warnings, readDocument host (.ofText name) = .ok v ∧
        Validation.warningsBeforeStop? s settings v = some warnings := by
  cases hread : readDocument host (.ofText name) with
  | error e =>
      rcases documentRefused_or_breaks hread with ⟨reason, -, hrefused⟩ | ⟨-, -, hbreaks⟩
      · exact .inl ⟨reason, hrefused⟩
      · exact .inr (.inl hbreaks)
  | ok v =>
      cases hstop : Validation.warningsBeforeStop? s settings v with
      | none => exact absurd ⟨v, hread, hstop⟩ h
      | some warnings => exact .inr (.inr ⟨v, warnings, rfl, hstop⟩)

end Batches

/-! ## Runs of commands -/

/-- The program ends with the status for what is refused, and the reason is the last text on the
error stream. -/
def Outcome.Tells (o : Outcome) (reason : String) : Prop :=
  o.ending = .status 1 ∧ o.err.getLast? = some (echo reason)

theorem Failure.outcome_plan_message (reason : String) (prints : List Print) :
    ((Failure.message reason).plan prints).outcome =
      { out := prints.filterMap Print.out?
        err := prints.filterMap Print.err? ++ [echo reason]
        ending := .status 1 } := by
  simp only [Plan.outcome, Failure.plan, List.filterMap_append, List.filterMap_cons, Print.out?,
    Print.err?, List.filterMap_nil, List.append_nil]

theorem Failure.tells_message (reason : String) (prints : List Print) :
    ((Failure.message reason).plan prints).outcome.Tells reason := by
  rw [Failure.outcome_plan_message]
  exact ⟨rfl, List.getLast?_concat⟩

section Runs

variable {host : Host} {base : FilePath} {verbose : Bool} {command : Command}
  {c : Configuration} {s : Schema} {f : Failure}

theorem runCommand_of_configuration_error {name : String} (hname : command.config? = some name)
    (h : configuration host (some name) = .error f) :
    runCommand host base verbose command = (f.plan []).outcome := by
  cases command with
  | generateConfig output => cases hname
  | inspect schemaName => cases hname
  | resolve schemaName config reference =>
      obtain rfl : config = some name := hname
      simp only [runCommand, planCommand, planResolve, h]
  | validate schemaName names config =>
      obtain rfl : config = some name := hname
      simp only [runCommand, planCommand, planValidate, h]

theorem runCommand_of_schema_error {name : String}
    (hc : configuration host command.config? = .ok c) (hname : command.schema? = some name)
    (h : schema host name = .error f) :
    runCommand host base verbose command = (f.plan []).outcome := by
  cases command with
  | generateConfig output => cases hname
  | inspect schemaName =>
      obtain rfl := Option.some_inj.mp hname
      simp only [runCommand, planCommand, planInspect, h]
  | resolve schemaName config reference =>
      obtain rfl := Option.some_inj.mp hname
      simp only [Command.config?] at hc
      simp only [runCommand, planCommand, planResolve, hc, h]
  | validate schemaName names config =>
      obtain rfl := Option.some_inj.mp hname
      simp only [Command.config?] at hc
      simp only [runCommand, planCommand, planValidate, hc, h]

theorem Prepared.schema_eq {name : String} (h : Prepared host command c s)
    (hname : command.schema? = some name) : CommandLine.schema host name = .ok s := by
  obtain ⟨other, hother, hs⟩ := h.schema
  obtain rfl := Option.some_inj.mp (hname.symm.trans hother)
  exact hs

section Validate

variable {schemaName : String} {names : List String} {config : Option String}

theorem planValidate_of_failure (h : Prepared host (.validate schemaName names config) c s)
    (hfailure : (batch host verbose s c.settings names).failure = some f) :
    planValidate host verbose schemaName names config =
      f.plan (batch host verbose s c.settings names).prints := by
  have hc : configuration host config = .ok c := h.configuration
  have hs : schema host schemaName = .ok s := h.schema_eq rfl
  simp only [planValidate, hc, hs, hfailure]

theorem planValidate_of_checked (h : Prepared host (.validate schemaName names config) c s)
    (hall : ∀ n ∈ names, Checked host s c.settings n) :
    planValidate host verbose schemaName names config =
      if names.countP (isInvalid host s c.settings) = 0 then
        { prints := names.flatMap (documentPrints host verbose s c.settings) }
      else (Failure.message
        (failedText (names.countP (isInvalid host s c.settings)) names.length)).plan
          (names.flatMap (documentPrints host verbose s c.settings)) := by
  have hc : configuration host config = .ok c := h.configuration
  have hs : schema host schemaName = .ok s := h.schema_eq rfl
  simp only [planValidate, hc, hs, batch_of_checked verbose hall]

theorem ending_planValidate (h : Prepared host (.validate schemaName names config) c s)
    (hall : ∀ n ∈ names, Checked host s c.settings n)
    (hvalid : names.countP (isInvalid host s c.settings) = 0) :
    (planValidate host verbose schemaName names config).outcome.ending = .status 0 := by
  rw [planValidate_of_checked h hall, if_pos hvalid]
  rfl

theorem tells_planValidate (h : Prepared host (.validate schemaName names config) c s)
    (hall : ∀ n ∈ names, Checked host s c.settings n)
    (hsome : 0 < names.countP (isInvalid host s c.settings)) :
    (planValidate host verbose schemaName names config).outcome.Tells
      (failedText (names.countP (isInvalid host s c.settings)) names.length) := by
  rw [planValidate_of_checked h hall, if_neg (Nat.ne_of_gt hsome)]
  exact Failure.tells_message _ _

end Validate

theorem exists_runCommand_of_failure (h : Prepared host command c s)
    (hfailure : (batch host verbose s c.settings command.documents).failure = some f) :
    ∃ prints, runCommand host base verbose command = (f.plan prints).outcome := by
  cases command with
  | validate schemaName names config =>
      exact ⟨_, congrArg Plan.outcome (planValidate_of_failure h hfailure)⟩
  | _ => cases hfailure

section Resolve

variable {schemaName reference : String} {config : Option String}

theorem tells_planResolve (h : Prepared host (.resolve schemaName config reference) c s)
    {e : Reference.Error}
    (he : Reference.dereference s c.settings.maxReferenceDepth reference = .error e) :
    (planResolve host schemaName config reference).outcome.Tells e.message := by
  have hc : configuration host config = .ok c := h.configuration
  have hs : schema host schemaName = .ok s := h.schema_eq rfl
  simp only [planResolve, hc, hs, he]
  exact Failure.tells_message _ _

theorem ending_planResolve (h : Prepared host (.resolve schemaName config reference) c s)
    {found : Option Node}
    (hfound : Reference.dereference s c.settings.maxReferenceDepth reference = .ok found) :
    (planResolve host schemaName config reference).outcome.ending =
      if (Json.render? (some 2) (.obj (resolvedMembers found))).isSome then .status 0
      else .breakdown .noJsonForm := by
  have hc : configuration host config = .ok c := h.configuration
  have hs : schema host schemaName = .ok s := h.schema_eq rfl
  simp only [planResolve, hc, hs, hfound]
  cases Json.render? (some 2) (.obj (resolvedMembers found)) <;> rfl

end Resolve

/-! ## Outputs -/

section Output

variable {disk : Disk} {name : String}

theorem OutputRefused.tells {reason : String} (h : OutputRefused disk base (.ofText name) reason) :
    (planGenerateConfig disk base name).outcome.Tells reason := by
  unfold planGenerateConfig
  cases h with
  | longName h =>
      rw [if_pos h]
      exact Failure.tells_message _ _
  | present h =>
      have hlong : disk.entry (.ofText name) ≠ .overlong := by
        intro heq
        simp [heq, Entry.isPresent] at h
      rw [if_neg hlong, if_pos h]
      exact Failure.tells_message _ _
  | parent h hparent =>
      have hlong : disk.entry (.ofText name) ≠ .overlong := by
        rcases h with h | h <;> simp [h]
      have habsent : ¬ (disk.entry (.ofText name)).isPresent = true := by
        rcases h with h | h <;> simp [h, Entry.isPresent]
      rw [if_neg hlong, if_neg habsent]
      generalize disk.entry (FilePath.ofText name).parent = entry at hparent
      cases hparent <;> exact Failure.tells_message _ _

theorem eq_directory_or_noPlace (entry : Entry) :
    entry = .directory ∨ ∃ fault, NoPlace entry fault := by
  cases entry with
  | directory => exact .inl rfl
  | file octets => exact .inr ⟨_, .file octets⟩
  | absent => exact .inr ⟨_, .absent⟩
  | blocked => exact .inr ⟨_, .blocked⟩
  | overlong => exact .inr ⟨_, .overlong⟩

theorem outputRefused_or_ending :
    (∃ reason, OutputRefused disk base (.ofText name) reason) ∨
      (planGenerateConfig disk base name).outcome.ending = .status 0 := by
  cases hentry : disk.entry (.ofText name) with
  | file octets => exact .inl ⟨_, .present (by rw [hentry]; rfl)⟩
  | directory => exact .inl ⟨_, .present (by rw [hentry]; rfl)⟩
  | overlong => exact .inl ⟨_, .longName hentry⟩
  | absent | blocked =>
      have h : disk.entry (.ofText name) = .absent ∨ disk.entry (.ofText name) = .blocked := by
        simp [hentry]
      rcases eq_directory_or_noPlace (disk.entry (FilePath.ofText name).parent) with
        hparent | ⟨fault, hparent⟩
      · right
        simp [planGenerateConfig, Plan.outcome, hentry, Entry.isPresent, hparent]
      · exact .inl ⟨_, .parent h hparent⟩

end Output

/-! ## The three ways to end -/

theorem Breaks.ending (h : Breaks host command) (base : FilePath) (verbose : Bool) :
    ∃ cause, (runCommand host base verbose command).ending = .breakdown cause := by
  cases h with
  | configuration hname h =>
      obtain ⟨cause, hcause⟩ := h.configuration_eq
      rw [runCommand_of_configuration_error hname hcause]
      exact ⟨cause, rfl⟩
  | schema hc hname h =>
      obtain ⟨cause, hcause⟩ := h.schema_eq
      rw [runCommand_of_schema_error hc hname hcause]
      exact ⟨cause, rfl⟩
  | document hready hnames hfront h =>
      obtain ⟨e, cause, he, hcause⟩ := h.readDocument_eq
      have hfailure := congrArg Batch.failure (batch_of_error verbose hnames hfront he)
      rw [hcause] at hfailure
      obtain ⟨prints, hrun⟩ := exists_runCommand_of_failure hready hfailure
      exact ⟨cause, by rw [hrun]; rfl⟩
  | validation hready hnames hfront hv h =>
      have hfailure := congrArg Batch.failure (batch_of_stop verbose hnames hfront hv h)
      obtain ⟨prints, hrun⟩ := exists_runCommand_of_failure hready hfailure
      exact ⟨.endless, by rw [hrun]; rfl⟩
  | printing hcommand hready hfound h =>
      subst hcommand
      refine ⟨.noJsonForm, (ending_planResolve hready hfound).trans ?_⟩
      rw [Json.render?_eq_none_iff.mpr h]
      rfl

theorem Refused.tells {reason : String} (h : Refused host base command reason) :
    (runCommand host base verbose command).Tells reason := by
  cases h with
  | configuration hname h =>
      rw [runCommand_of_configuration_error hname h.configuration_eq]
      exact Failure.tells_message reason _
  | schema hc hname h =>
      rw [runCommand_of_schema_error hc hname h.schema_eq]
      exact Failure.tells_message reason _
  | document hready hnames hfront h =>
      obtain ⟨e, he, hreason⟩ := h.readDocument_eq
      have hfailure := congrArg Batch.failure (batch_of_error verbose hnames hfront he)
      rw [hreason] at hfailure
      obtain ⟨prints, hrun⟩ := exists_runCommand_of_failure hready hfailure
      rw [hrun]
      exact Failure.tells_message reason _
  | output hcommand h =>
      subst hcommand
      exact h.tells
  | reference hcommand hready he =>
      subst hcommand
      exact tells_planResolve hready he
  | invalid hready hall hsome =>
      cases command with
      | validate schemaName names config => exact tells_planValidate hready hall hsome
      | _ => cases hsome

theorem ending_of_prepared (h : Prepared host command c s) :
    Breaks host command ∨ (∃ reason, Refused host base command reason) ∨
      (runCommand host base verbose command).ending = .status 0 := by
  cases command with
  | generateConfig output =>
      obtain ⟨name, hname, -⟩ := h.schema
      cases hname
  | inspect schemaName =>
      have hs : schema host schemaName = .ok s := h.schema_eq rfl
      simp [runCommand, planCommand, planInspect, Plan.outcome, hs]
  | resolve schemaName config reference =>
      cases hfound : Reference.dereference s c.settings.maxReferenceDepth reference with
      | error e => exact .inr (.inl ⟨_, .reference rfl h hfound⟩)
      | ok found =>
          by_cases hform : (Value.obj (resolvedMembers found)).HasJsonForm
          · right; right
            refine (ending_planResolve h hfound).trans (if_pos ?_)
            rw [Option.isSome_iff_ne_none, ne_eq, Json.render?_eq_none_iff, not_not]
            exact hform
          · exact .inl (.printing rfl h hfound hform)
  | validate schemaName names config =>
      rcases checked_or_first host s c.settings names with hall |
        ⟨front, name, rest, hnames, hfront, hname⟩
      · by_cases hvalid : names.countP (isInvalid host s c.settings) = 0
        · exact .inr (.inr (ending_planValidate h hall hvalid))
        · exact .inr (.inl ⟨_, .invalid h hall (Nat.pos_of_ne_zero hvalid)⟩)
      · rcases documentRefused_or_breaks_of_not_checked hname with ⟨reason, hdocument⟩ |
          hdocument | ⟨v, warnings, hv, hstop⟩
        · exact .inr (.inl ⟨reason, .document h hnames hfront hdocument⟩)
        · exact .inl (.document h hnames hfront hdocument)
        · exact .inl (.validation h hnames hfront hv hstop)

/-- Where a command needs a schema, it gets its configuration and its schema, or one of them is
refused or breaks. -/
theorem prepared_or_refused_or_breaks (base : FilePath) {name : String}
    (hname : command.schema? = some name) :
    (∃ c s, Prepared host command c s) ∨
      (∃ reason, FileRefused host command reason ∧ Refused host base command reason) ∨
      Breaks host command := by
  cases hc : configuration host command.config? with
  | error f =>
      obtain ⟨config, hconfig, ⟨reason, -, h⟩ | ⟨-, -, h⟩⟩ := configurationRefused_or_breaks hc
      · exact .inr (.inl ⟨reason, .configuration hconfig h, .configuration hconfig h⟩)
      · exact .inr (.inr (.configuration hconfig h))
  | ok c =>
      cases hs : schema host name with
      | error f =>
          rcases schemaRefused_or_breaks hs with ⟨reason, -, h⟩ | ⟨-, -, h⟩
          · exact .inr (.inl ⟨reason, .schema hname h, .schema hc hname h⟩)
          · exact .inr (.inr (.schema hc hname h))
      | ok s => exact .inl ⟨c, s, hc, name, hname, hs⟩

/-- A command breaks down, or is refused for a reason, or is carried out. -/
theorem breaks_or_refused_or_ending (host : Host) (base : FilePath) (verbose : Bool)
    (command : Command) :
    Breaks host command ∨ (∃ reason, Refused host base command reason) ∨
      (runCommand host base verbose command).ending = .status 0 := by
  cases hname : command.schema? with
  | none =>
      cases command with
      | generateConfig output =>
          refine .inr (outputRefused_or_ending.imp (fun ⟨reason, h⟩ => ?_) id)
          exact ⟨reason, .output rfl h⟩
      | _ => cases hname
  | some name =>
      rcases prepared_or_refused_or_breaks base hname with ⟨c, s, h⟩ | ⟨reason, -, h⟩ | h
      · exact ending_of_prepared h
      · exact .inr (.inl ⟨reason, h⟩)
      · exact .inl h

theorem Prepared.not_fileRefused (h : Prepared host command c s)
    (hall : ∀ n ∈ command.documents, Checked host s c.settings n) (reason : String) :
    ¬ FileRefused host command reason := by
  obtain ⟨hc, name, hname, hs⟩ := h
  rintro (⟨hconfig, hrefused⟩ | ⟨hschema, hrefused⟩ | ⟨hmem, hrefused⟩)
  · rw [hconfig, hrefused.configuration_eq] at hc
    cases hc
  · obtain rfl := Option.some_inj.mp (hname.symm.trans hschema)
    rw [hrefused.schema_eq] at hs
    cases hs
  · obtain ⟨v, hv, -⟩ := hall _ hmem
    obtain ⟨e, he, -⟩ := hrefused.readDocument_eq
    rw [he] at hv
    cases hv

theorem FileRefused.exists_refused {reason : String} (h : FileRefused host command reason)
    (base : FilePath) (hbreaks : ¬ Breaks host command) :
    ∃ cause, FileRefused host command cause ∧ Refused host base command cause := by
  cases hname : command.schema? with
  | none =>
      cases command with
      | generateConfig output =>
          cases h with
          | configuration hconfig _ => cases hconfig
          | schema hschema _ => cases hschema
          | document hmem _ => cases hmem
      | _ => cases hname
  | some name =>
      rcases prepared_or_refused_or_breaks base hname with ⟨c, s, hready⟩ | hrefused | hbreak
      · rcases checked_or_first host s c.settings command.documents with hall |
          ⟨front, name, rest, hnames, hfront, hfirst⟩
        · exact absurd h (hready.not_fileRefused hall reason)
        · have hmem : name ∈ command.documents := by simp [hnames]
          rcases documentRefused_or_breaks_of_not_checked hfirst with ⟨cause, hdocument⟩ |
            hdocument | ⟨v, warnings, hv, hstop⟩
          · exact ⟨cause, .document hmem hdocument, .document hready hnames hfront hdocument⟩
          · exact absurd (.document hready hnames hfront hdocument) hbreaks
          · exact absurd (.validation hready hnames hfront hv hstop) hbreaks
      · exact hrefused
      · exact absurd hbreak hbreaks

end Runs

end StructuralSchema.CommandLine
