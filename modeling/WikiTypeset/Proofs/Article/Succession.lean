import WikiTypeset.Proofs.Article.Documents
import WikiTypeset.Proofs.Emission.Environments

/-!
# Documents one after another

The articles of a collection follow one another, and each emitter starts in the direction of the collection. What an
article changes in its environments is undone at their ends, but a change outside them is not: the next article starts
in the direction that the last of these has set. Main statement: `document_leaves_direction`.
-/

namespace WikiTypeset.Article

open Action Latex Html

/-- Whatever the document and the direction that is in force before it, the environments of its output bring back their
directions, and the direction after it is the one before just if the last change of direction outside environments, if
there is one, has been to that direction. -/
theorem document_leaves_direction (document : Element) (title? : Option String) (lang : String)
    (options : ArticleOptions) (warned : List String) :
    Leaves (typesetDocument document title? lang) (start options (.known options.direction) warned)
      (fun _ t => ∀ before : NamedDirection, ∃ ds after,
        scopePieces ⟨before, []⟩ t.emitter.output = some (ds, ⟨after, []⟩) ∧
          (after = before ↔ ∀ d ∈ ds.getLast?, .known d = before))
      fun _ _ => True := by
  refine (typesetDocument_composes document title? lang options _ warned).imp (fun _ t h => ?_) fun _ _ _ => trivial
  obtain ⟨program, hprogram, hn, hperform⟩ := h
  have hflushed := flushed_tracks (sound_paragraph _) (.known options.direction) hn (List.Subset.refl _)
  obtain ⟨-, -, hread⟩ := hflushed.ok hperform
  have hbalanced : Balanced (t.emitter.output.filterMap Piece.block?) := by
    rw [blocks_flushed hread]
    exact hprogram.balanced
  intro before
  obtain ⟨ds, hds⟩ := hbalanced.scopePieces before
  refine ⟨ds, _, hds, ?_⟩
  cases ds.getLast? with
  | none => simp
  | some d => simp

/-- A document whose only paragraph runs from right to left. -/
def rightToLeftDocument : Element :=
  { name := "[document]"
    children := [.element "p" [⟨"dir", .text "rtl"⟩] [.text .plain ['א']]] }

/-- In a collection that runs from left to right, what follows the document would be set from right to left. -/
theorem rightToLeftDocument_turns : ∃ t ds,
    (typesetDocument rightToLeftDocument none "en").perform (start {} (.known .ltr) []) = (.ok (), t) ∧
      scopePieces ⟨.known .ltr, []⟩ t.emitter.output = some (ds, ⟨.known .rtl, []⟩) := by
  have hok : ((typesetDocument rightToLeftDocument none "en").perform (start {} (.known .ltr) [])).1.toBool = true := by
    decide +kernel
  have hturns : (scopePieces ⟨.known .ltr, []⟩
      ((typesetDocument rightToLeftDocument none "en").perform (start {} (.known .ltr) [])).2.emitter.output).any
        (fun r => r.2 == ⟨.known .rtl, []⟩) = true := by decide +kernel
  rcases hperform : (typesetDocument rightToLeftDocument none "en").perform (start {} (.known .ltr) []) with ⟨c | _, t⟩
  · simp [hperform, Except.toBool] at hok
  · rw [hperform] at hturns
    cases hscope : scopePieces ⟨.known .ltr, []⟩ t.emitter.output with
    | none => simp [hscope] at hturns
    | some r =>
      obtain ⟨ds, last⟩ := r
      obtain rfl : last = ⟨.known .rtl, []⟩ := by simpa [hscope] using hturns
      exact ⟨t, ds, rfl, hscope⟩

end WikiTypeset.Article
