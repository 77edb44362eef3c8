import Mathlib.Data.List.TakeWhile
import StructuralSchema.Proofs.Acceptance
import StructuralSchema.Proofs.Endings
import StructuralSchema.Proofs.JsonReading
import StructuralSchema.Proofs.NormalParts
import StructuralSchema.Proofs.Termination

/-!
# How the program ends

The program ends with the status of success, of refusal or of misuse, unless it breaks down. It
breaks down where the reader of its arguments does, with files that hold what JSON cannot or cannot
be read at all, and at a text that the output does not take: the commands have an answer to
everything that a JSON file can hold. What the readers of arguments, of JSON and of YAML accept is
left to them, and so are the bounds that they set. The commands themselves set none to the digits
of a number or to the depth of a value.
-/

namespace StructuralSchema.CommandLine

/-! ## JSON files -/

/-- What lies at the path can be looked at, and if it is a document, it holds what JSON documents
can hold. -/
structure HoldsJson (host : Host) (path : FilePath) : Prop where
  opens : ¬ DocumentBreaks host path
  isJson : ∀ v, readDocument host path = .ok v → v.IsJson

/-- The schema and the documents of the command hold JSON, and the program does not break down with
its configuration. -/
structure UsesJson (host : Host) (command : Command) : Prop where
  configuration : ∀ name, command.config? = some name →
    ¬ ConfigurationBreaks host (.ofText name)
  files : ∀ name ∈ command.schema?.toList ++ command.documents, HoldsJson host (.ofText name)

section Readers

variable {ε δ α : Type} {r : Except ε α} {f : ε → δ}

theorem exists_of_mapError_eq_error {e : δ} (h : r.mapError f = .error e) :
    ∃ cause, r = .error cause ∧ f cause = e := by
  cases r with
  | error cause => exact ⟨cause, rfl, Except.error.inj h⟩
  | ok a => cases h

theorem eq_ok_of_mapError {a : α} (h : r.mapError f = .ok a) : r = .ok a := by
  cases r with
  | error cause => cases h
  | ok b => exact congrArg Except.ok (Except.ok.inj h)

end Readers

section JsonFiles

variable {host : Host} {path : FilePath} {command : Command}

theorem holdsJson_of_isJsonPath {disk : Disk} (hpath : isJsonPath path = true)
    (hshort : disk.entry path ≠ .overlong) : HoldsJson disk path := by
  have hreader : (Host.ofDisk disk).readerOf path = Host.ownJson := by
    simp only [Host.readerOf, hpath, if_true, Host.ofDisk]
  constructor
  · rintro (hlong | ⟨-, he⟩)
    · exact hshort hlong
    · rw [hreader, Host.ownJson] at he
      obtain ⟨_, -, hfault⟩ := exists_of_mapError_eq_error he
      cases hfault
  · intro v h
    unfold readDocument at h
    split at h
    · rename_i text htext
      rw [hreader] at h
      split at h
      · rename_i w hparse
        obtain rfl := Except.ok.inj h
        exact Json.isJson_of_parse (eq_ok_of_mapError hparse)
      · cases h
      · cases h
    · cases h
    · cases h
    · cases h
    · cases h

theorem isRefusal_of_decode {v : Value} (hv : v.IsJson) {e : SchemaError}
    (h : Schema.decode v = .error e) : e.IsRefusal := by
  have hnot : ¬ IsSchema v := by
    intro hschema
    obtain ⟨s, hs⟩ := exists_decode_of_isSchema hv hschema
    rw [hs] at h
    cases h
  obtain ⟨other, hother, hrefusal⟩ := exists_refusal_of_not_isSchema hv hnot
  obtain rfl := Except.error.inj (h.symm.trans hother)
  exact hrefusal

theorem HoldsJson.not_schemaBreaks (h : HoldsJson host path) : ¬ SchemaBreaks host path := by
  intro hbreaks
  cases hbreaks with
  | document hbreaks => exact h.opens hbreaks
  | keyNotText hv he => cases isRefusal_of_decode (h.isJson _ hv) he
  | endless hv he => cases isRefusal_of_decode (h.isJson _ hv) he

theorem exists_decode_of_schema {name : String} {s : Schema} (h : schema host name = .ok s) :
    ∃ v, readDocument host (.ofText name) = .ok v ∧ Schema.decode v = .ok s := by
  unfold schema loadSchema at h
  cases hread : readDocument host (.ofText name) with
  | error e => simp [hread] at h
  | ok v =>
      refine ⟨v, rfl, ?_⟩
      cases hdecode : Schema.decode v with
      | error e => simp [hread, hdecode] at h
      | ok t => simpa [hread, hdecode] using h

theorem hasJsonForm_of_dereference {v : Value} (hv : v.IsJson) {s : Schema}
    (hs : Schema.decode v = .ok s) {limit : Int} {reference : String} {found : Option Node}
    (h : Reference.dereference s limit reference = .ok found) :
    (Value.obj (resolvedMembers found)).HasJsonForm := by
  cases found with
  | none => exact .obj (by simp [resolvedMembers]) (by simp [resolvedMembers])
  | some n =>
      cases s with
      | boolean b =>
          obtain ⟨last, hwalk⟩ := Reference.exists_walk_of_follow h
          unfold Reference.walk at hwalk
          split at hwalk <;> cases hwalk
      | definition d =>
          have hjson := ofObjects_isJson.encode_of_decode hv hv hs
          exact (isJson_encode_of_hasPart (Reference.hasPart_of_dereference h) hjson).hasJsonForm

theorem UsesJson.not_breaks (h : UsesJson host command) : ¬ Breaks host command := by
  intro hbreaks
  cases hbreaks with
  | configuration hname hbreak => exact h.configuration _ hname hbreak
  | schema hc hname hbreak => exact (h.files _ (by simp [hname])).not_schemaBreaks hbreak
  | document hready hnames hfront hbreak => exact (h.files _ (by simp [hnames])).opens hbreak
  | @validation c s front rest name v warnings hready hnames hfront hv hstop =>
      have hjson := (h.files name (by simp [hnames])).isJson v hv
      rw [Validation.warningsBeforeStop?_eq_none s c.settings hjson.isEndless_eq_false] at hstop
      cases hstop
  | printing hcommand hready hfound hform =>
      obtain ⟨-, name, hname, hs⟩ := hready
      obtain ⟨v, hv, hdecode⟩ := exists_decode_of_schema hs
      have hjson := (h.files name (by simp [hname])).isJson v hv
      exact hform (hasJsonForm_of_dereference hjson hdecode hfound)

end JsonFiles

/-! ## Deliveries -/

namespace Plan

variable {p : Plan} {takes : String → Bool}

theorem isTaken_iff : p.IsTaken takes ↔ ∀ print ∈ p.prints, print.stuck? takes = none := by
  simp only [IsTaken, outcome, List.mem_filterMap]
  constructor
  · intro h print hprint
    cases print with
    | out text => simp [Print.stuck?, h text ⟨.out text, hprint, rfl⟩]
    | err text => rfl
  · rintro h text ⟨print, hprint, hout⟩
    have hstuck := h print hprint
    cases print with
    | out other =>
        cases hout
        simpa [Print.stuck?] using hstuck
    | err other => cases hout

theorem finish_deliver_eq_ended_iff {ending : Ending} :
    (p.deliver takes).finish = .ended ending ↔ p.IsTaken takes ∧ p.ending = ending := by
  rw [isTaken_iff, ← List.findSome?_eq_none_iff]
  simp only [deliver]
  cases p.prints.findSome? (Print.stuck? takes) with
  | none => simp
  | some text => simp

example :
    let p : Plan := { prints := [.out "a", .err "b", .out "c", .err "d"] }
    ((p.deliver (· ≠ "c")).out, (p.deliver (· ≠ "c")).err, (p.deliver (· ≠ "c")).finish) =
      (["a"], ["b"], .stuck "c") := by
  decide

theorem IsTaken.err_deliver (h : p.IsTaken takes) : (p.deliver takes).err = p.outcome.err := by
  have hall : p.prints.takeWhile (fun print => (print.stuck? takes).isNone) = p.prints := by
    rw [List.takeWhile_eq_self_iff]
    intro print hprint
    rw [isTaken_iff.mp h print hprint]
    rfl
  simp only [deliver, outcome, hall]

end Plan

/-! ## Runs of the program -/

/-- The program breaks down with these arguments: their reader breaks down, or the command does, or
the output does not take what the program has to print. -/
inductive ArgumentsBreak (shell : Shell) (host : Host) (base : FilePath) (arguments : List String) :
    Prop
  | reader (h : shell.read arguments = .broken)
  | command {verbose : Bool} {command : Command}
      (h : shell.read arguments = .command verbose command) (hbreaks : Breaks host command)
  | output {text : String}
      (h : text ∈ (planReading host base (shell.read arguments)).outcome.out)
      (htext : shell.takes text = false)

def Delivery.HasStatus (d : Delivery) (code : ℕ) : Prop :=
  d.finish = .ended (.status code)

/-- The program ends with the status for what is refused, and the reason is the last text on the
error stream. -/
def Delivery.Tells (d : Delivery) (reason : String) : Prop :=
  d.HasStatus 1 ∧ d.err.getLast? = some (echo reason)

section Program

variable {shell : Shell} {host : Host} {base : FilePath} {arguments : List String}

theorem hasStatus_runIn_iff {code : ℕ} :
    (runIn shell host base arguments).HasStatus code ↔
      (planReading host base (shell.read arguments)).IsTaken shell.takes ∧
        (planReading host base (shell.read arguments)).ending = .status code :=
  Plan.finish_deliver_eq_ended_iff

theorem isTaken_refused (host : Host) (base : FilePath) (refusal : Refusal)
    (takes : String → Bool) : (planReading host base (.refused refusal)).IsTaken takes := by
  intro text htext
  rw [planReading, Plan.outcome, Print.filterMap_out?_map_err] at htext
  cases htext

theorem isTaken_of_not_break (h : ¬ ArgumentsBreak shell host base arguments) :
    (planReading host base (shell.read arguments)).IsTaken shell.takes := by
  intro text htext
  by_contra hne
  exact h (.output htext (Bool.eq_false_iff.mpr hne))

theorem ending_planCommand (verbose : Bool) (command : Command) :
    (planCommand host base verbose command).ending = (runCommand host base verbose command).ending :=
  rfl

theorem status_one_iff (verbose : Bool) {command : Command} :
    (runCommand host base verbose command).ending = .status 1 ↔
      ∃ reason, Refused host base command reason := by
  constructor
  · intro h
    rcases breaks_or_refused_or_ending host base verbose command with hbreaks | hrefused | hending
    · obtain ⟨cause, hcause⟩ := hbreaks.ending base verbose
      simp [hcause] at h
    · exact hrefused
    · simp [hending] at h
  · rintro ⟨reason, h⟩
    exact h.tells.1

theorem ending_runCommand_ne (verbose : Bool) (command : Command) :
    (runCommand host base verbose command).ending ≠ .status 2 := by
  rcases breaks_or_refused_or_ending host base verbose command with
    hbreaks | ⟨reason, hrefused⟩ | hending
  · obtain ⟨cause, hcause⟩ := hbreaks.ending base verbose
    simp [hcause]
  · simp [hrefused.tells.1]
  · simp [hending]

theorem exists_status_of_not_break (hshell : shell.KeepsStatuses)
    (h : ¬ ArgumentsBreak shell host base arguments) :
    ∃ code ∈ [0, 1, 2], (planReading host base (shell.read arguments)).ending = .status code := by
  cases hread : shell.read arguments with
  | command verbose command =>
      rcases breaks_or_refused_or_ending host base verbose command with
        hbreaks | ⟨reason, hrefused⟩ | hending
      · exact absurd (.command hread hbreaks) h
      · exact ⟨1, by simp, hrefused.tells.1⟩
      · exact ⟨0, by simp, hending⟩
  | shown texts => exact ⟨0, by simp, rfl⟩
  | refused refusal =>
      refine ⟨refusal.status, ?_, rfl⟩
      rw [hshell arguments refusal hread]
      split <;> simp
  | aborted => exact ⟨1, by simp, rfl⟩
  | broken => exact absurd (.reader hread) h

theorem ArgumentsBreak.not_hasStatus (h : ArgumentsBreak shell host base arguments) (code : ℕ) :
    ¬ (runIn shell host base arguments).HasStatus code := by
  rw [hasStatus_runIn_iff]
  rintro ⟨htaken, hending⟩
  cases h with
  | reader h => simp [h, planReading] at hending
  | command h hbreaks =>
      obtain ⟨cause, hcause⟩ := hbreaks.ending base _
      rw [h, planReading, ending_planCommand, hcause] at hending
      cases hending
  | output h htext =>
      rw [htaken _ h] at htext
      cases htext

theorem hasStatus_two_iff (hshell : shell.KeepsStatuses) :
    (runIn shell host base arguments).HasStatus 2 ↔
      ∃ refusal, shell.read arguments = .refused refusal ∧ refusal.isUsage = true := by
  rw [hasStatus_runIn_iff]
  constructor
  · rintro ⟨-, hending⟩
    cases hread : shell.read arguments with
    | command verbose command =>
        rw [hread] at hending
        exact absurd hending (ending_runCommand_ne verbose command)
    | shown texts => simp [hread, planReading] at hending
    | refused refusal =>
        refine ⟨refusal, rfl, ?_⟩
        have hstatus : refusal.status = 2 := by simpa [hread, planReading] using hending
        rw [hshell arguments refusal hread] at hstatus
        split at hstatus
        · assumption
        · cases hstatus
    | aborted => simp [hread, planReading] at hending
    | broken => simp [hread, planReading] at hending
  · rintro ⟨refusal, hread, husage⟩
    have hstatus : refusal.status = 2 := by rw [hshell arguments refusal hread, if_pos husage]
    rw [hread]
    exact ⟨isTaken_refused host base refusal _, congrArg Ending.status hstatus⟩

theorem tells_runIn {verbose : Bool} {command : Command} {reason : String}
    (hread : shell.read arguments = .command verbose command)
    (htaken : (planReading host base (shell.read arguments)).IsTaken shell.takes)
    (h : Refused host base command reason) : (runIn shell host base arguments).Tells reason := by
  obtain ⟨hending, herr⟩ : (runCommand host base verbose command).Tells reason := h.tells
  refine ⟨hasStatus_runIn_iff.mpr ⟨htaken, ?_⟩, ?_⟩
  · rw [hread]
    exact hending
  · rw [runIn, htaken.err_deliver, hread]
    exact herr

/-- The program ends with one of three statuses, unless it breaks down. With arguments that are
misused, and only then, it ends with the status of misuse. If a file of the command is refused, the
program says for one of them why. If its files hold JSON and the output takes every text, it does
not break down. -/
theorem run_ends (hshell : shell.KeepsStatuses) (host : Host) (base : FilePath)
    (arguments : List String) :
    ((∃ code ∈ [0, 1, 2], (runIn shell host base arguments).HasStatus code) ↔
        ¬ ArgumentsBreak shell host base arguments) ∧
      ((runIn shell host base arguments).HasStatus 2 ↔
        ∃ refusal, shell.read arguments = .refused refusal ∧ refusal.isUsage = true) ∧
      (∀ refusal, shell.read arguments = .refused refusal →
        (runIn shell host base arguments).err = refusal.texts) ∧
      (∀ verbose command, shell.read arguments = .command verbose command →
        ((runIn shell host base arguments).HasStatus 1 ↔
          (∃ reason, Refused host base command reason) ∧
            ∀ text ∈ (runCommand host base verbose command).out, shell.takes text = true) ∧
        ∀ reason, FileRefused host command reason →
          ¬ ArgumentsBreak shell host base arguments →
          ∃ cause, FileRefused host command cause ∧ Refused host base command cause ∧
            (runIn shell host base arguments).Tells cause) ∧
      (shell.read arguments ≠ .broken → (∀ text, shell.takes text = true) →
        (∀ verbose command, shell.read arguments = .command verbose command →
          UsesJson host command) →
        ∃ code ∈ [0, 1, 2], (runIn shell host base arguments).HasStatus code) := by
  have hends (h : ¬ ArgumentsBreak shell host base arguments) :
      ∃ code ∈ [0, 1, 2], (runIn shell host base arguments).HasStatus code := by
    obtain ⟨code, hcode, hending⟩ := exists_status_of_not_break hshell h
    exact ⟨code, hcode, hasStatus_runIn_iff.mpr ⟨isTaken_of_not_break h, hending⟩⟩
  refine ⟨⟨?_, hends⟩, hasStatus_two_iff hshell, ?_, ?_, ?_⟩
  · rintro ⟨code, -, hstatus⟩ hbreaks
    exact hbreaks.not_hasStatus code hstatus
  · intro refusal hread
    -- What is said of a refusal goes to the error stream alone, so it always arrives.
    rw [runIn, hread, (isTaken_refused host base refusal _).err_deliver]
    exact Print.filterMap_err?_map_err refusal.texts
  · intro verbose command hread
    constructor
    · rw [hasStatus_runIn_iff, ← status_one_iff verbose, hread]
      exact and_comm
    · intro reason h hbreaks
      obtain ⟨cause, hcause, hrefused⟩ :=
        h.exists_refused base fun hbreak => hbreaks (.command hread hbreak)
      exact ⟨cause, hcause, hrefused, tells_runIn hread (isTaken_of_not_break hbreaks) hrefused⟩
  · intro hreader htakes huses
    apply hends
    rintro (hbroken | ⟨hread, hbreaks⟩ | ⟨-, htext⟩)
    · exact hreader hbroken
    · exact (huses _ _ hread).not_breaks hbreaks
    · rw [htakes] at htext
      cases htext

end Program

def plainOctets (text : String) : List UInt8 :=
  text.toList.map fun c => UInt8.ofNat c.toNat

def unknownTypeDisk : Disk where
  entry path :=
    if path.toText = "s.json" then .file (plainOctets "\x7b\"type\": \"nil\"\x7d") else .absent

theorem unknownType_told :
    Shell.own.KeepsStatuses ∧
      FileRefused unknownTypeDisk (.validate "s.json" ["i.json"] none)
        "#/type has unsupported value 'nil'." ∧
      ¬ ArgumentsBreak .own unknownTypeDisk (.ofText "/")
        ["validate", "--schema", "s.json", "--instance", "i.json"] ∧
      ∃ cause, FileRefused unknownTypeDisk (.validate "s.json" ["i.json"] none) cause ∧
        (runIn .own unknownTypeDisk (.ofText "/")
          ["validate", "--schema", "s.json", "--instance", "i.json"]).Tells cause := by
  have hread : Shell.own.read ["validate", "--schema", "s.json", "--instance", "i.json"] =
      .command false (.validate "s.json" ["i.json"] none) := by decide +kernel
  have hfailure : (match schema unknownTypeDisk "s.json" with
      | .ok _ => none
      | .error f => some f) = some (.message "#/type has unsupported value 'nil'.") := by
    decide +kernel
  have hfile : FileRefused unknownTypeDisk (.validate "s.json" ["i.json"] none)
      "#/type has unsupported value 'nil'." := by
    split at hfailure
    · cases hfailure
    · rename_i f hf
      obtain rfl := Option.some_inj.mp hfailure
      rcases schemaRefused_or_breaks hf with ⟨reason, hreason, hrefused⟩ | ⟨cause, hcause, -⟩
      · cases hreason
        exact .schema rfl hrefused
      · cases hcause
  have hschema : HoldsJson unknownTypeDisk (.ofText "s.json") :=
    holdsJson_of_isJsonPath (by decide +kernel) (by decide +kernel)
  have hinstance : HoldsJson unknownTypeDisk (.ofText "i.json") :=
    holdsJson_of_isJsonPath (by decide +kernel) (by decide +kernel)
  have huses : UsesJson unknownTypeDisk (.validate "s.json" ["i.json"] none) := by
    constructor
    · rintro name ⟨⟩
    · simpa [Command.schema?, Command.documents] using ⟨hschema, hinstance⟩
  have hbreaks : ¬ ArgumentsBreak .own unknownTypeDisk (.ofText "/")
      ["validate", "--schema", "s.json", "--instance", "i.json"] := by
    rintro (hbroken | ⟨hcommand, hbreaks⟩ | ⟨-, htext⟩)
    · rw [hread] at hbroken
      cases hbroken
    · rw [hread] at hcommand
      cases hcommand
      exact huses.not_breaks hbreaks
    · cases htext
  obtain ⟨-, -, -, hcommand, -⟩ := run_ends Shell.keepsStatuses_own unknownTypeDisk (.ofText "/")
    ["validate", "--schema", "s.json", "--instance", "i.json"]
  obtain ⟨cause, hcause, -, htells⟩ := (hcommand _ _ hread).2 _ hfile hbreaks
  exact ⟨Shell.keepsStatuses_own, hfile, hbreaks, cause, hcause, htells⟩

def configurationDirectoryDisk : Disk where
  entry path :=
    if path.toText = "s.json" then .file (plainOctets "\x7b\"type\": \"null\"\x7d")
    else if path.toText = "i.json" then .file (plainOctets "null")
    else if path.toText = "c" then .directory
    else .absent

/-- A directory in the place of the configuration is not answered with a status. -/
theorem configurationDirectory_breaks :
    ¬ ∀ (shell : Shell) (host : Host) (base : FilePath) (arguments : List String),
      shell.KeepsStatuses →
      ∃ code ∈ [0, 1, 2], (runIn shell host base arguments).HasStatus code := by
  intro h
  have hfinish : (runIn .own configurationDirectoryDisk (.ofText "/")
      ["validate", "--schema", "s.json", "--instance", "i.json", "--config", "c"]).finish =
        .ended (.breakdown (.configuration .directory)) := by decide +kernel
  obtain ⟨code, -, hcode⟩ := h .own configurationDirectoryDisk (.ofText "/")
    ["validate", "--schema", "s.json", "--instance", "i.json", "--config", "c"]
    Shell.keepsStatuses_own
  rw [Delivery.HasStatus, hfinish] at hcode
  cases hcode

end StructuralSchema.CommandLine
