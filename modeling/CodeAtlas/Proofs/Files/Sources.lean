import CodeAtlas.Files.Tree
import CodeAtlas.Proofs.Text.Utf8

/-! Source files: what is found at the path of a file, and which text its bytes show. -/
namespace CodeAtlas.Text

def lineFeeds (text : String) : String := String.ofList (normalLineEnds text.toList)

theorem normal_without_returns {text : List Char} (h : '\r' ∉ text) :
    normalLineEnds text = text := by
  induction text with
  | nil => rfl
  | cons c text ih =>
    obtain ⟨first, rest⟩ := not_or.mp (mt List.mem_cons.mpr h)
    rw [normalLineEnds, ih rest]
    · exact fun _ same _ => first same.symm
    · exact fun same => first same.symm

theorem line_feeds_self {text : String} (h : '\r' ∉ text.toList) : lineFeeds text = text := by
  rw [lineFeeds, normal_without_returns h, String.ofList_toList]

end CodeAtlas.Text

namespace CodeAtlas.Files

theorem Path.pieces_filled {word piece : String} (mem : piece ∈ (Path.ofText word).pieces) :
    piece ≠ "" := by
  obtain ⟨chars, kept, rfl⟩ := List.mem_map.mp mem
  have filled := (List.mem_filter.mp kept).2
  rintro empty
  rw [String.ofList_eq_empty_iff.mp empty] at filled
  cases filled

theorem Path.text_filled (word : String) : (Path.ofText word).text ≠ "" := by
  rw [Path.text]
  split_ifs with bare
  · decide
  · intro empty
    obtain ⟨noRoot, noPieces⟩ := String.append_eq_empty_iff.mp empty
    cases pieces : (Path.ofText word).pieces with
    | nil => exact bare (by simp [noRoot, pieces])
    | cons piece rest =>
      have filled : piece ≠ "" := pieces_filled (pieces ▸ List.mem_cons_self)
      rw [pieces] at noPieces
      cases rest with
      | nil => exact filled (by simpa using noPieces)
      | cons next rest =>
        have chars := congrArg String.toList noPieces
        simp [List.intercalate] at chars

namespace Tree

theorem find_write (tree : Tree) (path : Path) (content : Content) :
    (tree.write path content).find? path = some content := by
  have dropped : (tree.entries.filter fun entry => entry.1 ≠ known path).lookup (known path) =
      none := by
    refine List.lookup_eq_none_iff.mpr fun entry mem => ?_
    have other := of_decide_eq_true (List.mem_filter.mp mem).2
    exact bne_iff_ne.mpr fun same => other same.symm
  have found : (tree.write path content).entries.lookup (known path) = some content := by
    rw [write]
    dsimp only
    rw [List.lookup_append, dropped, List.lookup_cons, beq_self_eq_true]
    rfl
  rw [find?]
  dsimp only
  rw [found]

/-- A file of UTF-8 shows the text behind its bytes, with line feeds for its line ends. -/
theorem source_shown {tree : Tree} {path : Path} {text : String}
    (found : tree.find? path = some (.bytes text.toUTF8.toList)) :
    tree.sourceAt path = .ok (Text.lineFeeds text) := by
  rw [sourceAt, bytesAt, found]
  exact congrArg (fun chars => Except.ok (String.ofList (Text.normalLineEnds chars)))
    (Text.decodeReplacing_utf8 text)

end Tree

end CodeAtlas.Files
