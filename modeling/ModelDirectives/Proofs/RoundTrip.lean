import ModelDirectives.Loading
import ModelDirectives.Proofs.Acceptance
import ModelDirectives.Proofs.DocumentTexts
import ModelDirectives.Proofs.WellFormed
import ModelDirectives.Proofs.Yields

namespace ModelDirectives

/-- What is acceptable can be written. -/
theorem Document.Acceptable.plain {d : Document} (h : d.Acceptable) (distinct : d.KeysDistinct) :
    d.Plain :=
  fun t ht e he =>
    ⟨distinct t ht e he, fun m hm => (((h.types t ht).annotations e he).2 m hm).2⟩

/-- A model with texts that need escapes. The directive `name` of its type is not a string. -/
def Model.sample : Model :=
  ⟨[⟨"Color", .enum,
      [⟨"json", [⟨"name", some (.bool true)⟩, ⟨"context", some (.string "a,\"b\"\n\x01é\\")⟩,
        ⟨"default", none⟩]⟩],
      [⟨"id", "Map\tString", []⟩], [⟨"get", []⟩], [⟨"red", [⟨"go", []⟩]⟩]⟩]⟩

theorem Model.sample_wellFormed : sample.WellFormed := by
  have distinct : sample.document.KeysDistinct := by decide
  have accepted : sample.document.check.verdict = .ok sample := rfl
  exact wellFormed_iff.mpr ⟨((Document.verdict_eq_ok_iff distinct).mp accepted).1, distinct⟩

theorem Document.read_newline (s : String) : read ("\n" ++ s) = read s := by
  have same : Json.tokens ("\n" ++ s).toList = Json.tokens s.toList := by
    rw [String.toList_append]
    exact (Json.tokens.eq_def _).trans (if_pos rfl)
  unfold read Json.readAll
  rw [same]

namespace Loading

theorem ofText_of_read {s : String} {d : Document} (h : Document.read s = .ok d) {m : Model} :
    (ofText s).outcome = .ok m ↔ d.check.verdict = .ok m := by
  unfold ofText
  rw [h]
  cases hv : d.check.verdict with
  | error v => simp [hv]
  | ok m => simp [hv]

/-- A text that a model is loaded from holds a document that the model describes. -/
theorem document_of_ofText {s : String} {m : Model} (h : (ofText s).outcome = .ok m) :
    m.WellFormed ∧ Document.read s = .ok m.document := by
  cases hr : Document.read s with
  | error fault => simp [ofText, hr] at h
  | ok d =>
    have distinct := Document.keysDistinct_of_read hr
    obtain ⟨acceptable, rfl⟩ := (Document.verdict_eq_ok_iff distinct).mp ((ofText_of_read hr).mp h)
    rw [Model.wellFormed_iff, Document.document_image acceptable]
    exact ⟨⟨acceptable, distinct⟩, rfl⟩

theorem read_text_of_wellFormed {m : Model} (h : m.WellFormed) :
    Document.read m.document.text = .ok m.document := by
  obtain ⟨acceptable, distinct⟩ := Model.wellFormed_iff.mp h
  exact Document.read_text (acceptable.plain distinct)

/-- A well formed model is loaded from its own text. -/
theorem ofFile_text {m : Model} (h : m.WellFormed) :
    (ofFile (.ok m.document.text.toUTF8)).outcome = .ok m := by
  obtain ⟨acceptable, distinct⟩ := Model.wellFormed_iff.mp h
  rw [ofFile_toUTF8, ofText_of_read (read_text_of_wellFormed h)]
  exact (Document.verdict_eq_ok_iff distinct).mpr ⟨acceptable, m.image_document.symm⟩

/-- A well formed model is loaded from its own text. Whatever file a model is loaded from, the model
is well formed, and its own text is loaded with the same result and the same notices. -/
theorem round_trip :
    (∀ m : Model, m.WellFormed → (ofFile (.ok m.document.text.toUTF8)).outcome = .ok m) ∧
    ∀ bytes m, (ofFile (.ok bytes)).outcome = .ok m →
      m.WellFormed ∧ ofFile (.ok m.document.text.toUTF8) = ofFile (.ok bytes) := by
  constructor
  · intro m h
    exact ofFile_text h
  · intro bytes m h
    unfold ofFile at h
    simp only at h
    split at h
    next => cases h
    next s hs =>
      obtain ⟨wellFormed, read⟩ := document_of_ofText h
      refine ⟨wellFormed, ?_⟩
      rw [ofFile_toUTF8, ofText_congr ((read_text_of_wellFormed wellFormed).trans read.symm)]
      simp only [ofFile, hs]

theorem round_trip_sample :
    Model.sample.WellFormed ∧
      (ofFile (.ok Model.sample.document.text.toUTF8)).outcome = .ok Model.sample ∧
      (ofFile (.ok ("\n" ++ Model.sample.document.text).toUTF8)).outcome = .ok Model.sample ∧
      ofFile (.ok Model.sample.document.text.toUTF8) =
        ofFile (.ok ("\n" ++ Model.sample.document.text).toUTF8) := by
  have wellFormed := Model.sample_wellFormed
  have loaded := round_trip.1 Model.sample wellFormed
  have indented : (ofFile (.ok ("\n" ++ Model.sample.document.text).toUTF8)).outcome =
      .ok Model.sample := by
    rw [ofFile_toUTF8, ofText_congr (Document.read_newline _), ← ofFile_toUTF8]
    exact loaded
  exact ⟨wellFormed, loaded, indented, (round_trip.2 _ _ indented).2⟩

end Loading

end ModelDirectives
