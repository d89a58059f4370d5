/-
  NaturalDeduction.Proofs.ViablePrefix
  ────────────────────────────────────
  **NO COMPLAINT COMES LATE.**

  What a reader has passed over when it complains can always be completed to a
  formula (`implication_inTime`), so the first token that rules a formula out is
  never passed over.  Main statements:

    • `inTime_of_parse` — for a whole text, whether or not all of it is to be read,
    • `filter_before_spanAt` — the tokens that were passed over are those that
      lie before the span of the complaint,
    • `parse_complains_in_time` — so these can be completed.
-/
import NaturalDeduction.Proofs.Grammar
import NaturalDeduction.Proofs.Scanning

namespace NaturalDeduction.Formula

variable {e : Unexpected}

/-- A complaint about a whole text comes in time, whether or not all of the text
was to be read. -/
theorem inTime_of_parse {text : String}
    (h : parse text = .error e ∨ parseExact text = .error e) :
    InTime (byteLength text.toList) (Viable .implication) (Token.tokenize text) e := by
  rcases h with h | h
  · exact implication_inTime (parse_eq_error h)
  · rcases parseExact_eq_error h with he | ⟨p, hp, rfl⟩
    · exact implication_inTime he
    · -- A formula was read to its end, and needs no completion.
      obtain ⟨used, hused, hderives⟩ := implication_derives hp
      exact ⟨used, p.rest, _, hused, rfl, [], p.value, by rwa [List.append_nil]⟩

/-- **The tokens that end before the next one starts are those that come before
it**, and at the end of a text these are all of them. -/
theorem filter_before_spanAt {text : String} {used rest : List Token}
    (h : Token.tokenize text = used ++ rest) :
    ((Token.tokenize text).filter fun t =>
        t.span.stop ≤ (Token.spanAt (byteLength text.toList) rest).start) = used := by
  obtain ⟨hpairwise, hplaced⟩ := Token.scan_ordered 0 text.toList
  rw [show Token.scan 0 text.toList = used ++ rest from h] at hpairwise hplaced
  obtain ⟨-, hrest, hbefore⟩ := List.pairwise_append.mp hpairwise
  rw [h, List.filter_append]
  have hused : ∀ t ∈ used, t.span.stop ≤ (Token.spanAt (byteLength text.toList) rest).start := by
    intro t ht
    cases rest with
    | nil =>
        have hmem : t ∈ Token.tokenize text := h ▸ List.mem_append_left _ ht
        exact (Token.marks_of_mem_tokenize hmem).1.stop_le
    | cons u rest => exact hbefore t ht u List.mem_cons_self
  have hnone : ∀ t ∈ rest, ¬ t.span.stop ≤ (Token.spanAt (byteLength text.toList) rest).start := by
    intro t ht
    cases rest with
    | nil => exact absurd ht (by simp)
    | cons u rest =>
        -- No token ends before the first of them starts.
        have hu := (hplaced u (by simp)).2
        have ht' := (hplaced t (List.mem_append_right _ ht)).2
        show ¬ t.span.stop ≤ u.span.start
        rcases List.mem_cons.mp ht with rfl | hlater
        · omega
        · have hle := (List.pairwise_cons.mp hrest).1 t hlater
          omega
  rw [List.filter_eq_self.mpr (by simpa using hused),
    List.filter_eq_nil_iff.mpr (by simpa using hnone), List.append_nil]

/-- **No complaint comes late.**  When a text is not read as a formula, the
tokens that lie before the span of the complaint can be completed to one.  The
span is that of a token, which was found there, or that of the end of the text,
where nothing was found. -/
theorem parse_complains_in_time {text : String} {e : Unexpected}
    (h : parse text = .error e ∨ parseExact text = .error e) :
    Viable .implication ((Token.tokenize text).filter fun t => t.span.stop ≤ e.span.start)
      ∧ ((∃ t ∈ Token.tokenize text, e.span = t.span ∧ e.found = some t.text)
        ∨ (e.span = .emptyAt (byteLength text.toList) ∧ e.found = none)) := by
  obtain ⟨used, rest, expected, htokens, rfl, hviable⟩ := inTime_of_parse h
  have hbefore := filter_before_spanAt htokens
  refine ⟨?_, ?_⟩
  · show Viable .implication ((Token.tokenize text).filter fun t =>
        t.span.stop ≤ (Token.spanAt (byteLength text.toList) rest).start)
    rw [hbefore]
    exact hviable
  · cases rest with
    | nil => exact Or.inr ⟨rfl, rfl⟩
    | cons t rest =>
        have hmem : t ∈ Token.tokenize text := htokens ▸ List.mem_append_right _ List.mem_cons_self
        exact Or.inl ⟨t, hmem, rfl, rfl⟩

/-- A term is missing behind the comma, inside a parenthesis under a quantifier:
what comes before can be completed. -/
theorem parse_complains_in_time_comma :
    parse "forall(x) (P(a,) v Q)" = .error ⟨.term, some ")", ⟨15, 16⟩⟩
      ∧ Viable .implication (Token.tokenize "forall(x) (P(a,") := by
  have herror : parse "forall(x) (P(a,) v Q)" = .error ⟨.term, some ")", ⟨15, 16⟩⟩ := by
    decide +kernel
  have hbefore : ((Token.tokenize "forall(x) (P(a,) v Q)").filter fun t => t.span.stop ≤ 15)
      = Token.tokenize "forall(x) (P(a," := by decide +kernel
  have hviable := (parse_complains_in_time (Or.inl herror)).1
  rw [← hbefore]
  exact ⟨herror, hviable⟩

end NaturalDeduction.Formula
