import Mathlib.Logic.Relation
import StructuralSchema.Proofs.JsonText
import StructuralSchema.Proofs.NormalParts
import StructuralSchema.Schema.Document

/-!
# Schemas read back from their text

If no number of a document has a fraction, the schema read from it has a text in every layout,
is read back from that text, and is written the same way again.
-/

namespace StructuralSchema

/-- No number that stands in the value has a fraction or an exponent. -/
def Value.NumbersAreWhole (v : Value) : Prop :=
  ∀ x, ¬ Relation.ReflTransGen Value.IsPartOf (.float x) v

theorem Value.NumbersAreWhole.of_part {v w : Value} (h : v.NumbersAreWhole)
    (hw : w.IsPartOf v) : w.NumbersAreWhole :=
  fun x hx => h x (hx.tail hw)

theorem Value.IsJson.isWhole {v : Value} (hv : v.IsJson) (h : v.NumbersAreWhole) : v.IsWhole := by
  induction hv with
  | @scalar s hs =>
      cases s with
      | float x => exact (h x .refl).elim
      | bytes octets => exact hs.elim
      | date day => exact hs.elim
      | time t => exact hs.elim
      | _ => exact .scalar trivial
  | arr _ ih => exact .arr fun v hv => ih v hv (h.of_part (.element hv))
  | obj keys _ ih => exact .obj keys fun m hm => ih m hm (h.of_part (.member hm))

theorem Value.IsWhole.of_reflTransGen {v w : Value} (hv : v.IsWhole)
    (h : Relation.ReflTransGen Value.IsPartOf w v) : w.IsWhole := by
  induction h using Relation.ReflTransGen.head_induction_on with
  | refl => exact hv
  | head hpart _ ih => exact ih.of_isPartOf hpart

theorem Value.IsWhole.numbersAreWhole {v : Value} (hv : v.IsWhole) : v.NumbersAreWhole :=
  fun _ h => isWhole_scalar_iff.mp (hv.of_reflTransGen h)

/-! ## Schemas -/

theorem ofObjects_isWhole : OfObjects Value.IsWhole :=
  ⟨.obj, fun h => (Value.isWhole_obj_iff.mp h).2⟩

theorem decode_encode_eq {v : Value} (hjson : v.IsJson) {s : Schema}
    (h : Schema.decode v = .ok s) : Schema.decode s.encode = .ok s := by
  cases s with
  | boolean b => rfl
  | definition d =>
      have hregular := (readsRegularDefinition v).1 _ d (decodeDefinition_of_decode hjson h)
      simp only [Schema.decode, Schema.encode, Value.unlooped, hregular.decodeDefinition_encode]

/-- The schema is read from a JSON text, or from octets that hold one, and the numbers in the
text are whole. -/
inductive Schema.IsReadFromWhole (s : Schema) : Prop
  | text {text : String} {v : Value} (hread : Json.parse text = .ok v)
      (hwhole : v.NumbersAreWhole) (hparse : Schema.parse text = .ok s)
  | octets {octets : List UInt8} {text : String} {v : Value}
      (htext : Text.decodeAnnounced octets = .ok text)
      (hread : Json.parseChars text.toList = .ok v) (hwhole : v.NumbersAreWhole)
      (hparse : Schema.parseOctets octets = .ok s)

theorem Schema.IsReadFromWhole.exists_decode {s : Schema} (h : s.IsReadFromWhole) :
    ∃ v : Value, v.IsJson ∧ v.IsWhole ∧ Schema.decode v = .ok s := by
  cases h with
  | @text text v hread hwhole hparse =>
      have hjson := Json.isJson_of_parse hread
      refine ⟨v, hjson, hjson.isWhole hwhole, ?_⟩
      simpa only [Schema.parse, hread] using hparse
  | @octets octets text v htext hread hwhole hparse =>
      have hjson := Json.isJson_of_parseChars hread
      refine ⟨v, hjson, hjson.isWhole hwhole, ?_⟩
      simpa only [Schema.parseOctets, htext, hread] using hparse

/-- A schema that was read from JSON text without fractions has a text in every layout. From that
text the same schema is read, and its text in the same layout is that text again. -/
theorem render_read_back {s : Schema} (h : s.IsReadFromWhole) (indent : Option Int) :
    ∃ out, s.render? indent = some out ∧
      ∃ t, Schema.parse out = .ok t ∧ t = s ∧ t.render? indent = some out := by
  obtain ⟨v, hjson, hv, hs⟩ := h.exists_decode
  obtain ⟨out, hout, hread⟩ := Json.exists_render?
    (ofObjects_isWhole.encode_of_decode hjson hv hs) indent
  refine ⟨out, hout, s, ?_, rfl, hout⟩
  simp only [Schema.parse, hread, decode_encode_eq hjson hs]

def escapedDocument : Value :=
  .obj [
    (.str "enum", .arr [.int (-12), .arr [], .str "\"\x01/é\n"]),
    (.str "type", .str "string")]

theorem escapedDocument_read_back :
    ∃ s, Schema.parse
        "\x7b\"enum\": [-12, [], \"\\\"\\u0001/é\\n\"], \"type\": \"string\"\x7d" = .ok s ∧
      s.IsReadFromWhole ∧
      s.render? (some 0) = some ("\x7b\n\"type\": \"string\",\n" ++
        "\"enum\": [\n-12,\n[],\n\"\\\"\\u0001/é\\n\"\n]\n\x7d") ∧
      ∃ out, s.render? (some 0) = some out ∧ Schema.parse out = .ok s := by
  have hwhole : escapedDocument.IsWhole := by simp [escapedDocument, Scalar.IsWhole]
  obtain ⟨text, htext, hread⟩ := Json.exists_render? hwhole none
  obtain rfl : "\x7b\"enum\": [-12, [], \"\\\"\\u0001/é\\n\"], \"type\": \"string\"\x7d" = text := by
    have hrender : Json.render? none escapedDocument =
        some "\x7b\"enum\": [-12, [], \"\\\"\\u0001/é\\n\"], \"type\": \"string\"\x7d" := by
      decide +kernel
    exact Option.some_inj.mp (hrender.symm.trans htext)
  obtain ⟨s, hs, hrender⟩ : ∃ s, Schema.decode escapedDocument = .ok s ∧
      s.render? (some 0) = some ("\x7b\n\"type\": \"string\",\n" ++
        "\"enum\": [\n-12,\n[],\n\"\\\"\\u0001/é\\n\"\n]\n\x7d") :=
    ⟨_, rfl, by decide +kernel⟩
  have hparse : Schema.parse
      "\x7b\"enum\": [-12, [], \"\\\"\\u0001/é\\n\"], \"type\": \"string\"\x7d" = .ok s := by
    rw [Schema.parse, hread]
    exact hs
  have hfrom : s.IsReadFromWhole := .text hread hwhole.numbersAreWhole hparse
  obtain ⟨out, hout, t, ht, rfl, -⟩ := render_read_back hfrom (some 0)
  exact ⟨t, hparse, hfrom, hrender, out, hout, ht⟩

end StructuralSchema
