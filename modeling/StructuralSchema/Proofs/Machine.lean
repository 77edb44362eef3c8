import Mathlib.Logic.Relation
import StructuralSchema.Proofs.Check

/-!
# Validation step by step

Validation as a machine. A call checks one part of the value against one node; it leaves tasks,
which are calls for the parts of its value and findings of its own. Nothing about the machine
says that it stops, and the nodes may refer to each other in circles. It stops because every
call inside another is on a part of the value, and what it has found by then is the report.
-/

namespace StructuralSchema

def Value.IsProperPartOf : Value → Value → Prop :=
  Relation.TransGen Value.IsPartOf

theorem Value.IsPartOf.sizeOf_lt {v w : Value} (h : w.IsPartOf v) : sizeOf w < sizeOf v := by
  cases h with
  | element h =>
      have hlt := List.sizeOf_lt_of_mem h
      rw [Value.arr.sizeOf_spec]
      omega
  | member h =>
      have hlt := List.sizeOf_lt_of_mem h
      rw [Prod.mk.sizeOf_spec] at hlt
      rw [Value.obj.sizeOf_spec]
      omega

namespace Validation

/-- A check of the part of the value at a place against a node, which is found at a site. -/
structure Call where
  node : Node
  place : Pointer
  site : String
  value : Value

inductive Task
  | call (inner : Call)
  | give (findings : Findings)

def Demand.task (place : Pointer) (v : Value) : Demand → Task
  | .node n site => .call ⟨n, place, site, v⟩
  | .anything => .give .empty
  | .failed reference e => .give (.mismatch place (.unresolvedReference reference e v))

def memberTask (c : Context) (name : String) (p : Property) (required : Bool) (place : Pointer)
    (site : String) (members : Members) : Task :=
  match lookup name members with
  | some v => (c.demand (propertySite site name) p).task (place.child name) v
  | none => .give (if required then .mismatch place (.missingRequired name) else .empty)

/-- What the parts of a JSON value lead to: a single mismatch if the value is of another type
than the node gives, and otherwise a task for each element or for each property. -/
def partTasks (c : Context) (n : Node) (place : Pointer) (site : String) : Value → List Task
  | .scalar s =>
    if matchesScalar n s then []
    else [.give (.mismatch place (.wrongType n.typeName (.scalar s)))]
  | .arr elements =>
    match n with
    | .array items _ =>
      elements.zipIdx.map fun entry =>
        .call ⟨items, place.child (toString entry.2), site ++ "/items", entry.1⟩
    | _ => [.give (.mismatch place (.wrongType n.typeName (.arr elements)))]
  | .obj members =>
    match n with
    | .object properties required _ =>
      properties.map fun entry =>
        memberTask c entry.1 entry.2 ((required.getD []).contains entry.1) place site members
    | _ => [.give (.mismatch place (.wrongType n.typeName (.obj members)))]
  | _ => []

def Call.tasks (c : Context) (call : Call) : List Task :=
  partTasks c call.node call.place call.site call.value ++
    [.give ⟨[], c.notices call.node call.site⟩]

def Makes (c : Context) (outer inner : Call) : Prop :=
  Task.call inner ∈ outer.tasks c

/-- The calls that were made, what was found, and what is still to be done. -/
structure State where
  calls : List Call
  found : Findings
  todo : List Task

inductive Step (c : Context) : State → State → Prop
  | call (call : Call) (calls : List Call) (found : Findings) (todo : List Task) :
      Step c ⟨calls, found, .call call :: todo⟩ ⟨calls ++ [call], found, call.tasks c ++ todo⟩
  | give (findings : Findings) (calls : List Call) (found : Findings) (todo : List Task) :
      Step c ⟨calls, found, .give findings :: todo⟩ ⟨calls, found ++ findings, todo⟩

def Runs (c : Context) : State → State → Prop :=
  Relation.ReflTransGen (Step c)

def firstTasks (s : Schema) (settings : Settings) (v : Value) : List Task :=
  match s with
  | .boolean true => []
  | .boolean false => [.give (.mismatch .root (.falseSchema v))]
  | .definition d =>
    match d.specification with
    | none => []
    | some p => [(Context.demand ⟨some s, settings⟩ "#" p).task .root v]

def State.start (s : Schema) (settings : Settings) (v : Value) : State :=
  ⟨[], .empty, firstTasks s settings v⟩

theorem Runs.preserve {c : Context} {P : State → Prop} (hstep : ∀ s t, Step c s t → P s → P t)
    {s t : State} (h : Runs c s t) (hs : P s) : P t := by
  induction h with
  | refl => exact hs
  | tail _ hnext ih => exact hstep _ _ hnext ih

theorem Step.rightUnique (c : Context) : Relator.RightUnique (Step c) := by
  intro s t u ht hu
  cases ht <;> cases hu <;> rfl

/-- From wherever it has come to, the machine gets to a state where nothing is left to be done,
if it gets to one at all. -/
theorem Runs.reaches {c : Context} {s t last : State} (hlast : Runs c s last)
    (hdone : last.todo = []) (h : Runs c s t) : Runs c t last := by
  -- The machine has no choice, so of two runs from one state one goes on from the other's end.
  rcases Relation.ReflTransGen.total_of_right_unique (Step.rightUnique c) h hlast with
    hrest | hback
  · exact hrest
  · rcases Relation.ReflTransGen.cases_head hback with rfl | ⟨next, hnext, -⟩
    · exact hback
    · cases hnext <;> simp at hdone

/-! ## Every run comes to its end -/

namespace Findings

theorem append_empty (f : Findings) : f ++ empty = f := by
  show Findings.mk (f.mismatches ++ []) (f.notices ++ []) = f
  rw [List.append_nil, List.append_nil]

theorem append_assoc (f g h : Findings) : f ++ g ++ h = f ++ (g ++ h) := by
  show Findings.mk (f.mismatches ++ g.mismatches ++ h.mismatches)
      (f.notices ++ g.notices ++ h.notices) = _
  rw [List.append_assoc, List.append_assoc]
  rfl

end Findings

variable {c : Context}

/-- The machine gets the tasks done, and what it finds with them is this. -/
def TasksGive (c : Context) (tasks : List Task) (findings : Findings) : Prop :=
  ∀ calls found todo, ∃ made,
    Runs c ⟨calls, found, tasks ++ todo⟩ ⟨calls ++ made, found ++ findings, todo⟩

namespace TasksGive

theorem nil : TasksGive c [] .empty := by
  intro calls found todo
  refine ⟨[], ?_⟩
  rw [Findings.append_empty, List.append_nil]
  exact .refl

theorem give (findings : Findings) : TasksGive c [.give findings] findings := by
  intro calls found todo
  refine ⟨[], ?_⟩
  rw [List.append_nil]
  exact .single (.give _ _ _ _)

theorem append {tasks others : List Task} {f g : Findings} (hf : TasksGive c tasks f)
    (hg : TasksGive c others g) : TasksGive c (tasks ++ others) (f ++ g) := by
  intro calls found todo
  obtain ⟨made, hmade⟩ := hf calls found (others ++ todo)
  obtain ⟨more, hmore⟩ := hg (calls ++ made) (found ++ f) todo
  refine ⟨made ++ more, ?_⟩
  rw [List.append_assoc, ← Findings.append_assoc, ← List.append_assoc calls]
  exact hmade.trans hmore

theorem map {α : Type} {xs : List α} {task : α → Task} {findings : α → Findings}
    (each : ∀ x ∈ xs, TasksGive c [task x] (findings x)) :
    TasksGive c (xs.map task) (.join (xs.map findings)) := by
  induction xs with
  | nil => exact nil
  | cons x rest ih =>
      obtain ⟨hx, hrest⟩ := List.forall_mem_cons.mp each
      exact hx.append (ih hrest)

theorem call {call : Call} {findings : Findings} (h : TasksGive c (call.tasks c) findings) :
    TasksGive c [.call call] findings := by
  intro calls found todo
  obtain ⟨made, hmade⟩ := h (calls ++ [call]) found todo
  refine ⟨[call] ++ made, ?_⟩
  rw [← List.append_assoc]
  exact .head (.call _ _ _ _) hmade

end TasksGive

/-- A call on the value gets done, and finds what the check of the value finds. -/
def CallsEnd (c : Context) (v : Value) : Prop :=
  ∀ (n : Node) (place : Pointer) (site : String),
    TasksGive c [.call ⟨n, place, site, v⟩] (checkNode c n place site v)

theorem tasksGive_demand {v : Value} (hv : CallsEnd c v) (place : Pointer) (demand : Demand) :
    TasksGive c [demand.task place v] (c.meet place v demand) := by
  cases demand with
  | node n site => exact hv n place site
  | anything => exact .give _
  | failed reference e => exact .give _

theorem tasksGive_member {members : Members} (each : ∀ m ∈ members, CallsEnd c m.2)
    (name : String) (p : Property) (required : Bool) (place : Pointer) (site : String) :
    TasksGive c [memberTask c name p required place site members]
      (checkMember c name p required place site members) := by
  rw [memberTask, checkMember_eq_meet]
  cases hlookup : lookup name members with
  | some v => exact tasksGive_demand (each _ (mem_of_lookup hlookup)) _ _
  | none => exact .give _

section Call

variable {n : Node} {place : Pointer} {site : String}

theorem tasksGive_call {v : Value} {findings : Findings}
    (hcheck : checkNode c n place site v = findings ++ ⟨[], c.notices n site⟩)
    (h : TasksGive c (partTasks c n place site v) findings) :
    TasksGive c [.call ⟨n, place, site, v⟩] (checkNode c n place site v) := by
  rw [hcheck]
  exact .call (h.append (.give _))

theorem partTasks_scalar {s : Scalar} (h : (Value.scalar s).HasType n.typeName) :
    partTasks c n place site (.scalar s) = [] := by
  simp [partTasks, matchesScalar_iff.mpr h]

theorem partTasks_of_not_hasType (place : Pointer) (site : String) {v : Value} (hv : v.IsJson)
    (h : ¬ v.HasType n.typeName) :
    partTasks c n place site v = [.give (.mismatch place (.wrongType n.typeName v))] ∧
      checkNode c n place site v =
        .mismatch place (.wrongType n.typeName v) ++ ⟨[], c.notices n site⟩ := by
  cases hv with
  | @scalar s hs =>
      have hmatch : matchesScalar n s = false :=
        Bool.eq_false_iff.mpr fun hm => h (matchesScalar_iff.mp hm)
      rw [partTasks, checkNode, hmatch]
      exact ⟨rfl, rfl⟩
  | @arr elements each =>
      cases n with
      | array items unsupported => exact (h (.array elements)).elim
      | _ => exact ⟨rfl, rfl⟩
  | @obj members keys each =>
      cases n with
      | object properties required unsupported => exact (h (.object members)).elim
      | _ => exact ⟨rfl, rfl⟩

theorem tasksGive_of_not_hasType {v : Value} (hv : v.IsJson) (h : ¬ v.HasType n.typeName) :
    TasksGive c [.call ⟨n, place, site, v⟩] (checkNode c n place site v) := by
  obtain ⟨htasks, hcheck⟩ := partTasks_of_not_hasType place site hv h
  apply tasksGive_call hcheck
  rw [htasks]
  exact .give _

end Call

theorem callsEnd_of_isJson {v : Value} (hv : v.IsJson) : CallsEnd c v := by
  -- The node stays free: a reference on a part may lead back to any node of the document.
  induction hv with
  | @scalar s hs =>
      intro n place site
      by_cases htype : (Value.scalar s).HasType n.typeName
      · apply @tasksGive_call c n place site (.scalar s) .empty
        · rw [checkNode, if_pos (matchesScalar_iff.mpr htype)]
          rfl
        · rw [partTasks_scalar htype]
          exact .nil
      · exact tasksGive_of_not_hasType (.scalar hs) htype
  | @arr elements json ih =>
      intro n place site
      by_cases htype : (Value.arr elements).HasType n.typeName
      · obtain ⟨items, unsupported, rfl⟩ := exists_array_of_hasType htype
        refine tasksGive_call (by rw [checkNode, checkElements_eq_join]) (.map ?_)
        intro entry hentry
        exact ih entry.1 (List.fst_mem_of_mem_zipIdx hentry) items _ _
      · exact tasksGive_of_not_hasType (.arr json) htype
  | @obj members keys json ih =>
      intro n place site
      by_cases htype : (Value.obj members).HasType n.typeName
      · obtain ⟨properties, required, unsupported, rfl⟩ := exists_object_of_hasType htype
        refine tasksGive_call (by rw [checkNode]) (.map ?_)
        intro entry hentry
        exact tasksGive_member ih _ _ _ _ _
      · exact tasksGive_of_not_hasType (.obj keys json) htype

/-- The machine comes to its end, and what it has found by then is the report. -/
theorem exists_runs_start (s : Schema) (settings : Settings) {v : Value} (hv : v.IsJson) :
    ∃ last, Runs ⟨some s, settings⟩ (.start s settings v) last ∧ last.todo = [] ∧
      (validate s settings v).mismatches = last.found.mismatches ∧
      (validate s settings v).notices = last.found.notices.eraseDups := by
  obtain ⟨findings, htasks, hmismatches, hnotices⟩ : ∃ findings,
      TasksGive ⟨some s, settings⟩ (firstTasks s settings v) findings ∧
        (validate s settings v).mismatches = findings.mismatches ∧
        (validate s settings v).notices = findings.notices.eraseDups := by
    cases s with
    | boolean accepts =>
        cases accepts with
        | true => exact ⟨_, .nil, rfl, rfl⟩
        | false => exact ⟨_, .give _, rfl, rfl⟩
    | definition d =>
        cases hd : d.specification with
        | none =>
            refine ⟨.empty, ?_, ?_, ?_⟩
            · simpa [firstTasks, hd] using TasksGive.nil
            · simp [validate_untyped hd]
            · simp [validate_untyped hd, Findings.empty]
        | some p =>
            rw [validate_typed hd]
            refine ⟨_, ?_, rfl, rfl⟩
            simpa only [firstTasks, hd] using tasksGive_demand (callsEnd_of_isJson hv) _ _
  obtain ⟨made, hmade⟩ := htasks [] .empty []
  rw [List.append_nil] at hmade
  exact ⟨_, hmade, rfl, hmismatches, hnotices⟩

end Validation

end StructuralSchema
