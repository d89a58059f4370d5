/-
  NaturalDeduction.Proofs.Complaints
  ──────────────────────────────────
  **WHAT A COMPLAINT ABOUT A FORMULA POINTS AT.**

  A reader complains about what stands behind a part of its tokens
  (`Formula.inTime_of_parse`), so the span of a complaint marks the token that
  was found, or the end of the text if none was.
-/
import NaturalDeduction.Proofs.ViablePrefix

namespace NaturalDeduction.Unexpected

variable {e : Unexpected} {text : String}

/-- **A complaint points at a span** if what it found is there: the token whose
text it gives, or nothing if the text had come to its end. -/
def PointsAt (e : Unexpected) (span : Span) (text : List Char) : Prop :=
  span.Marks (e.found.getD "").toList text ∧ (span.start = span.stop ↔ e.found = none)

/-- What is pointed at in a part of a text is pointed at in the whole. -/
theorem PointsAt.forward {span outer : Span} {mid text : List Char} (h : e.PointsAt span mid)
    (houter : outer.Marks mid text) : e.PointsAt (span.forward outer.start) text := by
  obtain ⟨hmarks, hempty⟩ := h
  refine ⟨houter.forward hmarks, ?_⟩
  rw [← hempty]
  show span.start + outer.start = span.stop + outer.start ↔ _
  omega

theorem pointsAt_unexpectedAt {rest : List Token} (h : rest <:+ Token.tokenize text)
    (expected : Expected) :
    (Token.unexpectedAt (byteLength text.toList) rest expected).PointsAt
      (Token.spanAt (byteLength text.toList) rest) text.toList := by
  cases rest with
  | nil =>
      have hend : (Span.emptyAt (byteLength text.toList)).Marks "".toList text.toList :=
        ⟨text.toList, [], by simp, rfl, by simp [Span.emptyAt]⟩
      exact ⟨hend, fun _ => rfl, fun _ => rfl⟩
  | cons t rest =>
      obtain ⟨hmarks, hne⟩ := Token.marks_of_mem_tokenize (h.subset List.mem_cons_self)
      refine ⟨hmarks, ?_⟩
      show t.span.start = t.span.stop ↔ some t.text = none
      rw [hmarks.start_eq_stop_iff]
      exact ⟨fun hnil => absurd hnil hne, fun hnone => absurd hnone (by simp)⟩

/-- **Whatever a text is refused for, the complaint points at its span**, whether
or not all of the text was to be read. -/
theorem pointsAt_of_parse (h : Formula.parse text = .error e ∨ Formula.parseExact text = .error e) :
    e.PointsAt e.span text.toList := by
  obtain ⟨used, rest, expected, htokens, rfl, -⟩ := Formula.inTime_of_parse h
  exact pointsAt_unexpectedAt ⟨used, htokens.symm⟩ expected

end NaturalDeduction.Unexpected
