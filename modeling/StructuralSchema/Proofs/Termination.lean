import StructuralSchema.Proofs.Machine
import StructuralSchema.Proofs.NodeObjects
import StructuralSchema.Proofs.Separation
import StructuralSchema.Validation.Course

/-!
# Validation ends

The machine that validates a value comes to its end, whatever references the schema has. Each
call is made for another place of the value, with the value at that place and with a node of
the document, and every task of every call gets done. So each value is found to be of the type
that its node gives or not, and a reference that fails is found as a mismatch.
-/

namespace StructuralSchema

theorem Value.isPartOf_of_part? {v w : Value} {token : String} (h : v.part? token = some w) :
    w.IsPartOf v := by
  unfold Value.part? at h
  split at h
  · exact .member (mem_of_lookup h)
  · obtain ⟨i, -, hi⟩ := Option.bind_eq_some_iff.mp h
    exact .element (List.mem_of_getElem? hi)
  · simp at h

namespace Pointer

def Diverge (p q : Pointer) : Prop :=
  ¬ p.Covers q ∧ ¬ q.Covers p

theorem covers_child (place : Pointer) (token : String) : place.Covers (place.child token) :=
  (covers_self (place.child token)).of_child

theorem diverge_child (place : Pointer) {s t : String} (h : s ≠ t) :
    (place.child s).Diverge (place.child t) := by
  constructor
  · intro hcovers
    exact hcovers.ne_of_ne (covers_self (place.child t)) h rfl
  · intro hcovers
    exact hcovers.ne_of_ne (covers_self (place.child s)) h.symm rfl

theorem covers_or_eq_of_covers_child {p q : Pointer} {token : String}
    (h : q.Covers (p.child token)) : q.Covers p ∨ q = p.child token := by
  obtain ⟨tokens, htokens⟩ := h
  rcases List.eq_nil_or_concat tokens with rfl | ⟨front, last, rfl⟩
  · right
    obtain ⟨others⟩ := q
    simpa [child] using htokens.symm
  · left
    refine ⟨front, ?_⟩
    have hsame : p.tokens ++ [token] = (q.tokens ++ front) ++ [last] := by
      simpa [child] using htokens
    exact (List.append_inj' hsame rfl).1

theorem Diverge.child {p q : Pointer} (h : p.Diverge q) (token : String) :
    (p.child token).Diverge q := by
  constructor
  · exact fun hcovers => h.1 hcovers.of_child
  · intro hcovers
    rcases covers_or_eq_of_covers_child hcovers with hcovers | rfl
    · exact h.2 hcovers
    · exact h.1 (covers_child p token)

end Pointer

namespace Validation

/-! ## Calls inside calls -/

section Makes

variable {c : Context} {outer inner : Call}

theorem eq_of_call_eq_task {demand : Demand} {place : Pointer} {v : Value}
    (h : Task.call inner = demand.task place v) :
    inner.place = place ∧ inner.value = v ∧ demand = .node inner.node inner.site := by
  cases demand with
  | node n site =>
      obtain rfl := Task.call.inj h
      exact ⟨rfl, rfl, rfl⟩
  | anything => cases h
  | failed reference e => cases h

theorem eq_of_call_eq_memberTask {name : String} {p : Property} {required : Bool}
    {place : Pointer} {site : String} {members : Members}
    (h : Task.call inner = memberTask c name p required place site members) :
    lookup name members = some inner.value ∧ inner.place = place.child name ∧
      c.demand (propertySite site name) p = .node inner.node inner.site := by
  unfold memberTask at h
  split at h
  · rename_i v hlookup
    obtain ⟨hplace, rfl, hdemand⟩ := eq_of_call_eq_task h
    exact ⟨hlookup, hplace, hdemand⟩
  · cases h

/-- A call makes calls only for the elements of an array, with the items of its node, and for
the members of an object that properties of its node name. -/
theorem Makes.array_or_object (h : Makes c outer inner) :
    (∃ items unsupported elements, outer.node = .array items unsupported ∧
        outer.value = .arr elements ∧ ∃ i : ℕ, elements[i]? = some inner.value ∧
        inner.place = outer.place.child (toString i) ∧ inner.node = items) ∨
      ∃ properties required unsupported members,
        outer.node = .object properties required unsupported ∧ outer.value = .obj members ∧
        ∃ entry ∈ properties, lookup entry.1 members = some inner.value ∧
          inner.place = outer.place.child entry.1 ∧
          c.demand (propertySite outer.site entry.1) entry.2 = .node inner.node inner.site := by
  obtain ⟨n, place, site, v⟩ := outer
  have hmem : Task.call inner ∈ partTasks c n place site v := by
    simpa [Makes, Call.tasks] using h
  unfold partTasks at hmem
  split at hmem
  · split_ifs at hmem <;> simp at hmem
  · rename_i elements
    cases n with
    | array items unsupported =>
        obtain ⟨⟨w, i⟩, hentry, heq⟩ := List.mem_map.mp hmem
        obtain rfl := Task.call.inj heq
        exact .inl ⟨items, unsupported, elements, rfl, rfl, i,
          List.mk_mem_zipIdx_iff_getElem?.mp hentry, rfl, rfl⟩
    | _ => simp at hmem
  · rename_i members
    cases n with
    | object properties required unsupported =>
        obtain ⟨entry, hentry, heq⟩ := List.mem_map.mp hmem
        obtain ⟨hlookup, hplace, hdemand⟩ := eq_of_call_eq_memberTask heq.symm
        exact .inr ⟨properties, required, unsupported, members, rfl, rfl, entry, hentry,
          hlookup, hplace, hdemand⟩
    | _ => simp at hmem
  · simp at hmem

theorem Makes.exists_token (h : Makes c outer inner) :
    ∃ token, inner.place = outer.place.child token ∧
      outer.value.part? token = some inner.value := by
  rcases h.array_or_object with ⟨-, -, elements, -, hvalue, i, hi, hplace, -⟩ |
    ⟨-, -, -, members, -, hvalue, entry, -, hlookup, hplace, -⟩
  · refine ⟨toString i, hplace, ?_⟩
    rw [hvalue, Value.part?_toString, hi]
  · refine ⟨entry.1, hplace, ?_⟩
    rw [hvalue]
    exact hlookup

theorem Makes.isPartOf (h : Makes c outer inner) : inner.value.IsPartOf outer.value := by
  obtain ⟨token, -, hpart⟩ := h.exists_token
  exact Value.isPartOf_of_part? hpart

theorem wellFounded_makes (c : Context) : WellFounded fun inner outer => Makes c outer inner := by
  apply Subrelation.wf (r := InvImage (· < ·) fun call : Call => sizeOf call.value)
  · exact fun h => h.isPartOf.sizeOf_lt
  · exact InvImage.wf _ Nat.lt_wfRel.wf

theorem isProperPartOf_of_transGen (h : Relation.TransGen (Makes c) outer inner) :
    inner.value.IsProperPartOf outer.value := by
  induction h with
  | single h => exact .single h.isPartOf
  | tail _ h ih => exact .head h.isPartOf ih

end Makes

/-! ## What every state on the way keeps -/

section Run

variable {c : Context} {s t : State}

def State.Every (P : Call → Prop) (s : State) : Prop :=
  ∀ call, call ∈ s.calls ∨ Task.call call ∈ s.todo → P call

theorem State.Every.step {P : Call → Prop}
    (hmakes : ∀ outer inner, P outer → Makes c outer inner → P inner) (h : Step c s t)
    (hs : s.Every P) : t.Every P := by
  cases h with
  | call call calls found todo =>
      have hcall : P call := hs call (.inr List.mem_cons_self)
      rintro other (hmade | htodo)
      · rcases List.mem_append.mp hmade with hmade | hnew
        · exact hs other (.inl hmade)
        · obtain rfl := List.mem_singleton.mp hnew
          exact hcall
      · rcases List.mem_append.mp htodo with hinner | htodo
        · exact hmakes call other hcall hinner
        · exact hs other (.inr (List.mem_cons_of_mem _ htodo))
  | give findings calls found todo =>
      rintro other (hmade | htodo)
      · exact hs other (.inl hmade)
      · exact hs other (.inr (List.mem_cons_of_mem _ htodo))

def Task.Diverge (task other : Task) : Prop :=
  ∀ call next, task = .call call → other = .call next → call.place.Diverge next.place

/-- The calls that were made are for different places, and those to be made are for others, which
do not lie in each other. -/
structure State.Spread (s : State) : Prop where
  made : s.calls.Pairwise fun a b => a.place ≠ b.place
  ahead : ∀ call ∈ s.calls, ∀ next, Task.call next ∈ s.todo → ¬ next.place.Covers call.place
  apart : s.todo.Pairwise Task.Diverge

theorem State.Spread.step (hinner : ∀ call, Task.call call ∈ s.todo →
    (call.tasks c).Pairwise Task.Diverge) (h : Step c s t) (hs : s.Spread) : t.Spread := by
  cases h with
  | call call calls found todo =>
      -- The calls that it makes lie below its own place, and that place diverges from all the
      -- others that are left.
      obtain ⟨hfirst, hapart⟩ := List.pairwise_cons.mp hs.apart
      constructor
      · refine List.pairwise_append.mpr ⟨hs.made, List.pairwise_singleton _ _, ?_⟩
        intro other hother last hlast heq
        obtain rfl := List.mem_singleton.mp hlast
        exact hs.ahead other hother last List.mem_cons_self (heq ▸ Pointer.covers_self _)
      · intro other hother next hnext hcovers
        rcases List.mem_append.mp hother with hother | hlast
        · rcases List.mem_append.mp hnext with hnext | hnext
          · obtain ⟨token, hplace, -⟩ := Makes.exists_token hnext
            rw [hplace] at hcovers
            exact hs.ahead other hother call List.mem_cons_self hcovers.of_child
          · exact hs.ahead other hother next (List.mem_cons_of_mem _ hnext) hcovers
        · obtain rfl := List.mem_singleton.mp hlast
          rcases List.mem_append.mp hnext with hnext | hnext
          · obtain ⟨token, hplace, -⟩ := Makes.exists_token hnext
            rw [hplace] at hcovers
            exact hcovers.ne_of_child rfl
          · exact (hfirst _ hnext other next rfl rfl).2 hcovers
      · refine List.pairwise_append.mpr ⟨hinner call List.mem_cons_self, hapart, ?_⟩
        rintro task htask other hother inner next rfl rfl
        obtain ⟨token, hplace, -⟩ := Makes.exists_token htask
        rw [hplace]
        exact (hfirst _ hother call next rfl rfl).child token
  | give findings calls found todo =>
      refine ⟨hs.made, ?_, (List.pairwise_cons.mp hs.apart).2⟩
      exact fun call hcall next hnext => hs.ahead call hcall next (List.mem_cons_of_mem _ hnext)

/-- The call was made, or the mismatches were found. -/
def Task.DoneIn (s : State) : Task → Prop
  | .call made => made ∈ s.calls
  | .give findings => findings.mismatches ⊆ s.found.mismatches

/-- Every task there was at first, and every task of a call that was made, is done or still to
be done. -/
def State.Attends (c : Context) (first : List Task) (s : State) : Prop :=
  ∀ task, task ∈ first ∨ (∃ call ∈ s.calls, task ∈ call.tasks c) → task.DoneIn s ∨ task ∈ s.todo

theorem Task.DoneIn.step {task : Task} (h : Step c s t) (hdone : task.DoneIn s) :
    task.DoneIn t := by
  -- Calls are only added to those that were made, and findings to those there are.
  cases h with
  | call call calls found todo =>
      cases task with
      | call other => exact List.mem_append_left _ hdone
      | give findings => exact hdone
  | give findings calls found todo =>
      cases task with
      | call other => exact hdone
      | give others => exact List.subset_append_of_subset_left _ hdone

theorem Step.doneIn_or_mem {task : Task} (h : Step c s t) (htask : task ∈ s.todo) :
    task.DoneIn t ∨ task ∈ t.todo := by
  cases h with
  | call call calls found todo =>
      rcases List.mem_cons.mp htask with rfl | htask
      · exact .inl (List.mem_append_right _ List.mem_cons_self)
      · exact .inr (List.mem_append_right _ htask)
  | give findings calls found todo =>
      rcases List.mem_cons.mp htask with rfl | htask
      · exact .inl (List.subset_append_right _ _)
      · exact .inr htask

theorem State.Attends.step {first : List Task} (h : Step c s t) (hs : s.Attends c first) :
    t.Attends c first := by
  have hold : ∀ task, task ∈ first ∨ (∃ call ∈ s.calls, task ∈ call.tasks c) →
      task.DoneIn t ∨ task ∈ t.todo := fun task htask =>
    (hs task htask).elim (fun hdone => .inl (hdone.step h)) h.doneIn_or_mem
  cases h with
  | call call calls found todo =>
      rintro task (hfirst | ⟨other, hother, htask⟩)
      · exact hold task (.inl hfirst)
      · rcases List.mem_append.mp hother with hother | hnew
        · exact hold task (.inr ⟨other, hother, htask⟩)
        · obtain rfl := List.mem_singleton.mp hnew
          exact .inr (List.mem_append_left _ htask)
  | give findings calls found todo => exact hold

theorem Task.diverge_of_ne (place : Pointer) {task other : Task} {token token' : String}
    (htask : ∀ call, task = .call call → call.place = place.child token)
    (hother : ∀ call, other = .call call → call.place = place.child token')
    (hne : token ≠ token') : task.Diverge other := by
  intro call next hcall hnext
  rw [htask call hcall, hother next hnext]
  exact Pointer.diverge_child place hne

theorem pairwise_diverge_tasks {call : Call} (hn : call.node.IsTidy) :
    (call.tasks c).Pairwise Task.Diverge := by
  obtain ⟨n, place, site, v⟩ := call
  refine List.pairwise_append.mpr ⟨?_, List.pairwise_singleton _ _, ?_⟩
  · change (partTasks c n place site v).Pairwise Task.Diverge
    unfold partTasks
    split
    · split_ifs
      · exact .nil
      · exact List.pairwise_singleton _ _
    · rename_i elements
      cases n with
      | array items unsupported =>
          rw [List.pairwise_map]
          refine (pairwise_index_ne elements).imp ?_
          intro a b hab
          refine Task.diverge_of_ne place ?_ ?_ hab
          · rintro call heq
            rw [← Task.call.inj heq]
          · rintro call heq
            rw [← Task.call.inj heq]
      | _ => exact List.pairwise_singleton _ _
    · rename_i members
      cases n with
      | object properties required unsupported =>
          rw [List.pairwise_map]
          refine (List.pairwise_map.mp hn.names).imp ?_
          intro a b hab
          refine Task.diverge_of_ne place ?_ ?_ hab
          · exact fun call heq => (eq_of_call_eq_memberTask heq.symm).2.1
          · exact fun call heq => (eq_of_call_eq_memberTask heq.symm).2.1
      | _ => exact List.pairwise_singleton _ _
    · exact .nil
  · rintro task - other hother call next - rfl
    simp at hother

end Run

/-! ## No check stops early -/

namespace Course

theorem stopped_andThen {a : Course} {next : Unit → Course} (ha : a.stopped = false)
    (hnext : (next ()).stopped = false) : (a.andThen next).stopped = false := by
  simp [andThen, ha, hnext]

theorem stopped_foldl {α : Type} {entries : List α} {course : α → Course}
    (each : ∀ entry ∈ entries, (course entry).stopped = false) {a : Course}
    (ha : a.stopped = false) :
    (entries.foldl (fun a entry => a.andThen fun _ => course entry) a).stopped = false := by
  induction entries generalizing a with
  | nil => exact ha
  | cons entry rest ih =>
      obtain ⟨hentry, hrest⟩ := List.forall_mem_cons.mp each
      exact ih hrest (stopped_andThen ha hentry)

variable {c : Context}

theorem stopped_ofRefusal (n : Node) {v : Value} (hv : v.isEndless = false) :
    (ofRefusal n v).stopped = false := by
  simp [ofRefusal, hv]

theorem stopped_ofElements {items : Node} {elements : List Value}
    (each : ∀ v ∈ elements, (ofNode c items v).stopped = false) :
    (ofElements c items elements).stopped = false := by
  induction elements with
  | nil => rfl
  | cons v rest ih =>
      obtain ⟨hv, hrest⟩ := List.forall_mem_cons.mp each
      rw [ofElements]
      exact stopped_andThen hv (ih hrest)

theorem stopped_ofMember {name : String} {p : Property} {members : Members}
    (each : ∀ m ∈ members, ∀ n, (ofNode c n m.2).stopped = false) :
    (ofMember c name p members).stopped = false := by
  induction members with
  | nil => rfl
  | cons m rest ih =>
      obtain ⟨hm, hrest⟩ := List.forall_mem_cons.mp each
      obtain ⟨key, v⟩ := m
      rw [ofMember]
      split_ifs
      · cases c.demand (propertySite "" name) p with
        | node n site => exact hm n
        | anything => rfl
        | failed reference e => rfl
      · exact ih hrest

/-- A check does not have to stop at a value of which no part holds itself. -/
theorem stopped_ofNode {v : Value} (hv : v.isEndless = false) (n : Node) :
    (ofNode c n v).stopped = false := by
  induction v using Value.partsInduction generalizing n with
  | scalar _ => rw [ofNode]
  | arr elements ih =>
      have each := Value.anyEndless_eq_false_iff.mp hv
      unfold ofNode
      split
      · exact stopped_ofElements fun v hmem => ih v hmem (each v hmem) _
      · exact stopped_ofRefusal n hv
  | obj members ih =>
      have each := Value.anyMemberEndless_eq_false_iff.mp hv
      unfold ofNode
      split
      · exact stopped_foldl (fun entry _ => stopped_ofMember fun m hm => ih m hm (each m hm)) rfl
      · exact stopped_ofRefusal n hv
  | pair v w ihv ihw =>
      obtain ⟨hfirst, hsecond⟩ := Bool.or_eq_false_iff.mp hv
      unfold ofNode
      split
      · exact stopped_andThen (ihv hfirst _) (ihw hsecond _)
      · exact stopped_ofRefusal n hv
  | set _ => rw [ofNode]
  | loop _ _ _ => cases hv
  | endless => cases hv

end Course

theorem warningsBeforeStop?_eq_none (s : Schema) (settings : Settings) {v : Value}
    (hv : v.isEndless = false) : warningsBeforeStop? s settings v = none := by
  have hstopped : (Course.ofSchema s settings v).stopped = false := by
    unfold Course.ofSchema Course.ofProperty
    split
    · rfl
    · split
      · exact Course.stopped_ofNode hv _
      · rfl
      · rfl
  simp [warningsBeforeStop?, hstopped]

/-! ## The end -/

/-- The validation of the value comes to a property at a place: it is the specification of the
document, or an object node that was checked names it for a member that is there. -/
inductive ComesTo (s : Schema) (v : Value) (calls : List Call) : Property → Pointer → Value → Prop
  | whole {d : Definition} {p : Property} (hs : s = .definition d)
      (hd : d.specification = some p) : ComesTo s v calls p .root v
  | member {call : Call} {properties : List (String × Property)}
      {required : Option (List String)} {unsupported : Annotations} {members : Members}
      {name : String} {p : Property} {w : Value} (hcall : call ∈ calls)
      (hnode : call.node = .object properties required unsupported)
      (hvalue : call.value = .obj members) (hp : (name, p) ∈ properties)
      (hw : lookup name members = some w) : ComesTo s v calls p (call.place.child name) w

/-- The validation of the value has come to this end. -/
structure Completed (document : Value) (s : Schema) (settings : Settings) (v : Value)
    (last : State) : Prop where
  finished : last.todo = []
  unstopped : warningsBeforeStop? s settings v = none
  mismatches : (validate s settings v).mismatches = last.found.mismatches
  notices : (validate s settings v).notices = last.found.notices.eraseDups
  located : ∀ call ∈ last.calls, v.at? call.place.toText = some call.value
  once : (last.calls.map fun call => call.place.toText).Nodup
  concrete : ∀ call ∈ last.calls, document.Declares call.node
  typed : ∀ call ∈ last.calls, call.value.HasType call.node.typeName ∨
    ⟨call.place, .wrongType call.node.typeName call.value⟩ ∈ last.found.mismatches
  followed : ∀ reference place w, ComesTo s v last.calls (.reference reference) place w →
    match Reference.dereference s settings.maxReferenceDepth reference with
    | .ok (some n) => ⟨n, place, reference, w⟩ ∈ last.calls
    | .ok none => True
    | .error e => ⟨place, .unresolvedReference reference e w⟩ ∈ last.found.mismatches

section Completed

variable {s : Schema} {settings : Settings} {v : Value} {last : State}

theorem eq_of_call_mem_firstTasks {call : Call}
    (h : Task.call call ∈ firstTasks s settings v) :
    ∃ d p, s = .definition d ∧ d.specification = some p ∧ call.place = .root ∧ call.value = v ∧
      Context.demand ⟨some s, settings⟩ "#" p = .node call.node call.site := by
  unfold firstTasks at h
  split at h
  · simp at h
  · simp at h
  · rename_i d
    cases hd : d.specification with
    | none => simp [hd] at h
    | some p =>
        simp only [hd] at h
        obtain ⟨hplace, hvalue, hdemand⟩ := eq_of_call_eq_task (List.mem_singleton.mp h)
        exact ⟨d, p, rfl, hd, hplace, hvalue, hdemand⟩

theorem hasPart_of_demand {d : Definition} {p : Property} (hp : d.HasPart p) {site : String}
    {n : Node} {spot : String}
    (h : Context.demand ⟨some (.definition d), settings⟩ site p = .node n spot) :
    d.HasPart (.node n) := by
  cases p with
  | node m =>
      obtain ⟨rfl, -⟩ := Demand.node.inj h
      exact hp
  | reference reference =>
      simp only [Context.demand, Context.dereference] at h
      split at h
      · rename_i m hends
        obtain ⟨rfl, -⟩ := Demand.node.inj h
        exact Reference.hasPart_of_dereference hends
      · cases h
      · cases h

theorem hasPart_of_makes {d : Definition} {outer inner : Call}
    (hnode : d.HasPart (.node outer.node))
    (h : Makes ⟨some (.definition d), settings⟩ outer inner) : d.HasPart (.node inner.node) := by
  rcases h.array_or_object with ⟨items, unsupported, -, harray, -, -, -, -, rfl⟩ |
    ⟨properties, required, unsupported, -, hobject, -, entry, hentry, -, -, hdemand⟩
  · rw [harray] at hnode
    exact hnode.of_isPart (Property.isPart_items _ unsupported)
  · rw [hobject] at hnode
    exact hasPart_of_demand
      (hnode.of_isPart (Property.isPart_of_mem hentry required unsupported)) hdemand

theorem every_of_runs {P : Call → Prop}
    (hfirst : ∀ call, Task.call call ∈ firstTasks s settings v → P call)
    (hmakes : ∀ outer inner, P outer → Makes ⟨some s, settings⟩ outer inner → P inner)
    (h : Runs ⟨some s, settings⟩ (.start s settings v) last) : last.Every P := by
  refine h.preserve (fun _ _ hstep => State.Every.step hmakes hstep) ?_
  rintro call (hmade | htodo)
  · exact (List.not_mem_nil hmade).elim
  · exact hfirst call htodo

theorem located_of_runs (h : Runs ⟨some s, settings⟩ (.start s settings v) last) :
    last.Every fun call => v.descend? call.place.tokens = some call.value := by
  refine every_of_runs ?_ ?_ h
  · intro call hcall
    obtain ⟨-, -, -, -, hplace, hvalue, -⟩ := eq_of_call_mem_firstTasks hcall
    rw [hplace, hvalue]
    rfl
  · intro outer inner houter hmakes
    obtain ⟨token, hplace, hpart⟩ := hmakes.exists_token
    rw [hplace, Pointer.child, Value.descend?_append, houter, Option.bind_some,
      Value.descend?_singleton]
    exact hpart

theorem hasPart_of_runs (h : Runs ⟨some s, settings⟩ (.start s settings v) last) :
    last.Every fun call => ∃ d, s = .definition d ∧ d.HasPart (.node call.node) := by
  refine every_of_runs ?_ ?_ h
  · intro call hcall
    obtain ⟨d, p, rfl, hd, -, -, hdemand⟩ := eq_of_call_mem_firstTasks hcall
    exact ⟨d, rfl, hasPart_of_demand (.specification hd .self) hdemand⟩
  · rintro outer inner ⟨d, rfl, hnode⟩ hmakes
    exact ⟨d, rfl, hasPart_of_makes hnode hmakes⟩

theorem spread_start : (State.start s settings v).Spread := by
  refine ⟨.nil, by simp [State.start], ?_⟩
  change (firstTasks s settings v).Pairwise Task.Diverge
  unfold firstTasks
  split
  · exact .nil
  · exact List.pairwise_singleton _ _
  · split
    · exact .nil
    · exact List.pairwise_singleton _ _

theorem spread_of_runs (tidy : ∀ d, s = .definition d → d.OnlyTidy)
    (h : Runs ⟨some s, settings⟩ (.start s settings v) last) : last.Spread := by
  induction h with
  | refl => exact spread_start
  | tail hrun hstep ih =>
      refine ih.step ?_ hstep
      intro call hcall
      obtain ⟨d, hd, hnode⟩ := hasPart_of_runs hrun call (.inr hcall)
      exact pairwise_diverge_tasks ((tidy d hd).nodes _ hnode)

theorem attends_of_runs (h : Runs ⟨some s, settings⟩ (.start s settings v) last) :
    last.Attends ⟨some s, settings⟩ (firstTasks s settings v) := by
  refine h.preserve (fun _ _ hstep => State.Attends.step hstep) ?_
  rintro task (hfirst | ⟨call, hcall, -⟩)
  · exact .inr hfirst
  · exact (List.not_mem_nil hcall).elim

theorem doneIn_of_attends {task : Task} (hfinished : last.todo = [])
    (hattends : last.Attends ⟨some s, settings⟩ (firstTasks s settings v))
    (htask : task ∈ firstTasks s settings v ∨
      ∃ call ∈ last.calls, task ∈ call.tasks ⟨some s, settings⟩) : task.DoneIn last := by
  rcases hattends task htask with hdone | htodo
  · exact hdone
  · simp [hfinished] at htodo

/-- What a property demands that the validation has come to is done in the end. -/
theorem doneIn_of_comesTo (hfinished : last.todo = [])
    (hattends : last.Attends ⟨some s, settings⟩ (firstTasks s settings v)) {p : Property}
    {place : Pointer} {w : Value} (h : ComesTo s v last.calls p place w) :
    ∃ site, ((Context.demand ⟨some s, settings⟩ site p).task place w).DoneIn last := by
  cases h with
  | whole hs hd =>
      subst hs
      refine ⟨"#", doneIn_of_attends hfinished hattends (.inl ?_)⟩
      simp [firstTasks, hd]
  | @member call properties required unsupported members name p w hcall hnode hvalue hp hw =>
      refine ⟨propertySite call.site name, doneIn_of_attends hfinished hattends
        (.inr ⟨call, hcall, List.mem_append_left _ ?_⟩)⟩
      rw [hnode, hvalue]
      refine List.mem_map.mpr ⟨(name, p), hp, ?_⟩
      simp [memberTask, hw]

/-- Where no call is dropped, a value of a wrong type is found. -/
theorem hasType_or_mem_of_attends (hfinished : last.todo = [])
    (hattends : last.Attends ⟨some s, settings⟩ (firstTasks s settings v)) {call : Call}
    (hcall : call ∈ last.calls) (hjson : call.value.IsJson) :
    call.value.HasType call.node.typeName ∨
      ⟨call.place, .wrongType call.node.typeName call.value⟩ ∈ last.found.mismatches := by
  by_cases htype : call.value.HasType call.node.typeName
  · exact .inl htype
  · right
    have hdone : (Task.give (.mismatch call.place
        (.wrongType call.node.typeName call.value))).DoneIn last := by
      refine doneIn_of_attends hfinished hattends (.inr ⟨call, hcall, List.mem_append_left _ ?_⟩)
      rw [(partTasks_of_not_hasType _ _ hjson htype).1]
      exact List.mem_singleton_self _
    exact hdone List.mem_cons_self

theorem isJson_of_descend? {tokens : List String} {w : Value} (hv : v.IsJson)
    (h : v.descend? tokens = some w) : w.IsJson := by
  induction tokens generalizing v with
  | nil =>
      obtain rfl := Option.some_inj.mp h
      exact hv
  | cons token rest ih =>
      obtain ⟨u, hu, hrest⟩ := Option.bind_eq_some_iff.mp h
      refine ih ?_ hrest
      cases Value.isPartOf_of_part? hu with
      | element hmem => exact Value.isJson_arr_iff.mp hv _ hmem
      | member hmem => exact (Value.isJson_obj_iff.mp hv).2 _ hmem

end Completed

theorem not_boolean_of_documentHasNodeObject {document : Value} {members : Members}
    (hobject : document.DocumentHasNodeObject members) {accepts : Bool} :
    Schema.decode document ≠ .ok (.boolean accepts) := by
  obtain ⟨outer, rfl⟩ : ∃ outer, document = .obj outer := by
    cases hobject with
    | specification _ _ => exact ⟨_, rfl⟩
    | definition _ _ _ => exact ⟨_, rfl⟩
  simp only [Schema.decode, Value.unlooped]
  split <;> simp

theorem completed_of_runs {document : Value} (hdocument : document.IsJson) {s : Schema}
    (hs : Schema.decode document = .ok s) {settings : Settings} {v : Value} (hv : v.IsJson)
    {last : State} (h : Runs ⟨some s, settings⟩ (.start s settings v) last)
    (hfinished : last.todo = [])
    (hmismatches : (validate s settings v).mismatches = last.found.mismatches)
    (hnotices : (validate s settings v).notices = last.found.notices.eraseDups) :
    Completed document s settings v last := by
  have hlocated := located_of_runs h
  have hattends := attends_of_runs h
  have hspread : last.Spread := by
    refine spread_of_runs ?_ h
    rintro d rfl
    exact onlyTidy_of_decode hdocument hs
  refine ⟨hfinished, warningsBeforeStop?_eq_none s settings hv.isEndless_eq_false,
    hmismatches, hnotices, ?_, ?_, ?_, ?_, ?_⟩
  · intro call hcall
    rw [Value.at?_toText]
    exact hlocated call (.inl hcall)
  · rw [List.nodup_iff_pairwise_ne, List.pairwise_map]
    exact hspread.made.imp fun hne heq => hne (Pointer.toText_injective heq)
  · intro call hcall
    obtain ⟨d, rfl, hnode⟩ := hasPart_of_runs h call (.inl hcall)
    exact declares_of_hasPart hdocument hs hnode
  · intro call hcall
    exact hasType_or_mem_of_attends hfinished hattends hcall
      (isJson_of_descend? hv (hlocated call (.inl hcall)))
  · intro reference place w hcomes
    obtain ⟨site, hdone⟩ := doneIn_of_comesTo hfinished hattends hcomes
    simp only [Context.demand, Context.dereference] at hdone
    cases hends : Reference.dereference s settings.maxReferenceDepth reference with
    | error e =>
        simp only [hends] at hdone
        exact hdone List.mem_cons_self
    | ok target =>
        cases target with
        | none => trivial
        | some n =>
            simp only [hends] at hdone
            exact hdone

/-- Validation ends, whatever references the schema has, and does not stop before its report is
complete. Each place of the value is checked at most once, and against a node that the document
gives without a reference; the value there is of the type of the node, or is reported. Every
reference that fails is reported as well. A call inside another is for a proper part of the
value of that one, and no array of the document has a reference as its items. -/
theorem validation_ends {document : Value} (hdocument : document.IsJson) {s : Schema}
    (hs : Schema.decode document = .ok s) (settings : Settings) {v : Value} (hv : v.IsJson) :
    (∃ last, Completed document s settings v last ∧
        ∀ state, Runs ⟨some s, settings⟩ (.start s settings v) state →
          Runs ⟨some s, settings⟩ state last) ∧
      (WellFounded fun inner outer => Makes ⟨some s, settings⟩ outer inner) ∧
      (∀ outer inner, Relation.TransGen (Makes ⟨some s, settings⟩) outer inner →
        inner.value.IsProperPartOf outer.value) ∧
      ∀ members, document.DocumentHasNodeObject members → lookup "$ref" members = none →
        lookup "type" members = some (.str TypeName.array.text) →
        ∃ parts, lookup "items" members = some (.obj parts) ∧ lookup "$ref" parts = none := by
  refine ⟨?_, wellFounded_makes _, fun outer inner h => isProperPartOf_of_transGen h, ?_⟩
  · obtain ⟨last, hlast, hfinished, hmismatches, hnotices⟩ := exists_runs_start s settings hv
    exact ⟨last, completed_of_runs hdocument hs hv hlast hfinished hmismatches hnotices,
      fun state hstate => hlast.reaches hfinished hstate⟩
  · intro members hobject hconcrete htype
    cases s with
    | boolean accepts => exact (not_boolean_of_documentHasNodeObject hobject hs).elim
    | definition d => exact concrete_items_of_decode hdocument hs hobject hconcrete htype

def circularDocument : Value :=
  .obj [
    (.str "type", .str "object"),
    (.str "properties", .obj [
      (.str "link", .obj [(.str "$ref", .str "#/definitions/link")]),
      (.str "cycle", .obj [(.str "$ref", .str "#/definitions/a")]),
      (.str "self", .obj [(.str "$ref", .str "#/properties/self")]),
      (.str "lost", .obj [(.str "$ref", .str "#/definitions/none")])]),
    (.str "definitions", .obj [
      (.str "link", .obj [
        (.str "type", .str "object"),
        (.str "properties", .obj [
          (.str "next", .obj [(.str "$ref", .str "#/definitions/link")])])]),
      (.str "a", .obj [(.str "$ref", .str "#/definitions/b")]),
      (.str "b", .obj [(.str "$ref", .str "#/definitions/a")])])]

def nestedInstance : Value :=
  .obj [
    (.str "link", .obj [(.str "next", .obj [(.str "next", .obj [(.str "next", .int 0)])])]),
    (.str "cycle", .null), (.str "self", .null), (.str "lost", .null)]

theorem nestedInstance_validation_ends :
    circularDocument.IsJson ∧ nestedInstance.IsJson ∧
      ∃ s, Schema.decode circularDocument = .ok s ∧
        ((validate s {} nestedInstance).mismatches.map fun m => (m.place.toText, m.kind)) =
          [("/link/next/next/next", .typeMismatch), ("/cycle", .unresolvedReference),
            ("/self", .unresolvedReference), ("/lost", .unresolvedReference)] ∧
        ∃ last, Completed circularDocument s {} nestedInstance last := by
  have hdocument : circularDocument.IsJson := by simp [circularDocument, Scalar.IsJson]
  have hinstance : nestedInstance.IsJson := by simp [nestedInstance, Scalar.IsJson]
  obtain ⟨s, hs, hreport⟩ : ∃ s, Schema.decode circularDocument = .ok s ∧
      ((validate s {} nestedInstance).mismatches.map fun m => (m.place.toText, m.kind)) =
        [("/link/next/next/next", .typeMismatch), ("/cycle", .unresolvedReference),
          ("/self", .unresolvedReference), ("/lost", .unresolvedReference)] :=
    ⟨_, rfl, by decide +kernel⟩
  obtain ⟨⟨last, hlast, -⟩, -⟩ := validation_ends hdocument hs {} hinstance
  exact ⟨hdocument, hinstance, s, hs, hreport, last, hlast⟩

end Validation

end StructuralSchema
