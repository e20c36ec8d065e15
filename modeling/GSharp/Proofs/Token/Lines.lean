import GSharp.Proofs.Token.Concatenation

namespace GSharp

namespace Piece

/-- The line on which the text goes on. -/
def lineAfter (before : List Char) : Nat := 1 + before.count '\n'

theorem lineAfter_append (before text : List Char) :
    lineAfter (before ++ text) = lineAfter before + text.count '\n' := by
  rw [lineAfter, lineAfter, List.count_append, Nat.add_assoc]

/-- Each piece with all the text that stands before it. -/
def standing (before : List Char) : List Piece → List (List Char × Piece)
  | [] => []
  | piece :: rest => (before, piece) :: standing (before ++ piece.text) rest

/-- A piece on the line where it stands. -/
def located (entry : List Char × Piece) : Located PieceKind × List Char :=
  (⟨entry.2.kind, lineAfter entry.1⟩, entry.2.text)

/-- The lines that are counted over the pieces are those of the text before them. -/
theorem placed_eq_standing (before : List Char) (pieces : List Piece) :
    placed (lineAfter before) pieces = (standing before pieces).map located := by
  induction pieces generalizing before with
  | nil => rfl
  | cons piece rest ih =>
    rw [placed, standing, List.map_cons, ← lineAfter_append, ih]
    rfl

/-- A piece stands in the text right after what comes before it. -/
theorem standing_prefix {before : List Char} {pieces : List Piece} {entry : List Char × Piece}
    (present : entry ∈ standing before pieces) :
    entry.1 ++ entry.2.text <+: before ++ pieces.flatMap Piece.text := by
  induction pieces generalizing before with
  | nil => cases present
  | cons piece rest ih =>
    rw [List.flatMap_cons, ← List.append_assoc]
    rcases List.mem_cons.mp present with rfl | later
    · exact List.prefix_append _ _
    · exact ih later

theorem line_of_token? {entry : Located PieceKind × List Char} {token : Token}
    (found : token? entry = some token) : token.line = entry.1.line := by
  obtain ⟨⟨kind, line⟩, text⟩ := entry
  cases kind <;> simp only [token?, Option.some.injEq, reduceCtorEq] at found
  exact found ▸ rfl

theorem line_of_fault? {entry : Located PieceKind × List Char} {error : Located LexicalFault}
    (found : fault? entry = some error) : error.line = entry.1.line := by
  obtain ⟨⟨kind, line⟩, text⟩ := entry
  cases kind <;> simp only [fault?, Option.some.injEq, reduceCtorEq] at found
  exact found ▸ rfl

end Piece

/-- The source has a line of that number. -/
def OnLine (source : String) (line : Nat) : Prop := 1 ≤ line ∧ line ≤ lineCount source

theorem onLine_lineAfter {source : String} {before : List Char}
    (inside : before <+: source.toList) : OnLine source (Piece.lineAfter before) := by
  have counted := inside.sublist.count_le '\n'
  simp only [OnLine, Piece.lineAfter, lineCount]
  omega

namespace Scan

theorem placed_onLine (source : String) :
    ∀ entry ∈ Piece.placed 1 (Piece.cut source.toList), OnLine source entry.1.line := by
  intro entry present
  have placed := Piece.placed_eq_standing [] (Piece.cut source.toList)
  obtain ⟨before, standing, rfl⟩ := List.mem_map.mp (placed ▸ present)
  have inside := Piece.standing_prefix standing
  rw [List.nil_append, (Piece.cut_tiles source.toList).flatMap_text] at inside
  exact onLine_lineAfter ((List.prefix_append _ _).trans inside)

theorem token_onLine (source : String) :
    ∀ token ∈ (scan source).tokens, OnLine source token.line := by
  intro token present
  rw [scan, Piece.ofPieces_eq, (Piece.cut_tiles source.toList).flatMap_text] at present
  rcases List.mem_append.mp present with real | last
  · obtain ⟨entry, placed, found⟩ := List.mem_filterMap.mp real
    exact Piece.line_of_token? found ▸ placed_onLine source entry placed
  · obtain rfl := List.mem_singleton.mp last
    exact onLine_lineAfter (List.prefix_refl _)

theorem error_onLine (source : String) :
    ∀ error ∈ (scan source).errors, OnLine source error.line := by
  intro error present
  rw [scan, Piece.ofPieces_eq] at present
  obtain ⟨entry, placed, found⟩ := List.mem_filterMap.mp present
  exact Piece.line_of_fault? found ▸ placed_onLine source entry placed

end Scan

/-- The tokens and the errors are the pieces of a source where they stand, in that order, each on
the line of its first character, and the end of input is on the last line. -/
structure Scan.OnLines (result : Scan) (source : List Char) (pieces : List Piece) : Prop where
  tiles : Piece.Tiles source pieces
  stands : ∀ entry ∈ Piece.standing [] pieces, entry.1 ++ entry.2.text <+: source
  tokens : result.tokens =
    ((Piece.standing [] pieces).map Piece.located).filterMap Piece.token? ++
      [⟨.endOfInput, "", Piece.lineAfter source⟩]
  errors : result.errors = ((Piece.standing [] pieces).map Piece.located).filterMap Piece.fault?

theorem scan_onLines (source : String) :
    ∃ pieces, (scan source).OnLines source.toList pieces := by
  have tiles := Piece.cut_tiles source.toList
  have placed := Piece.placed_eq_standing [] (Piece.cut source.toList)
  refine ⟨Piece.cut source.toList, tiles, ?_, ?_, ?_⟩
  · intro entry present
    simpa only [List.nil_append, tiles.flatMap_text] using Piece.standing_prefix present
  · rw [scan, Piece.ofPieces_eq, tiles.flatMap_text, ← placed]
    rfl
  · rw [scan, Piece.ofPieces_eq, ← placed]
    rfl

end GSharp
