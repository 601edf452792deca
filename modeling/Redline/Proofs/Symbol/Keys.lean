import Redline.Proofs.Store
import Redline.Proofs.Text.Numerals
import Redline.Proofs.Text.Parts
import Redline.Symbol.Basic

/-!
# Keys read back

The text of a key is read as the key exactly if its name has no colon; the file may have some. In
one file the text tells the name.
-/

namespace Redline.SymbolKey

theorem whole_ofInt (k : Int) : Record.whole (.str (Text.Numeral.ofInt k)) = .ok k := by
  rw [Record.whole, Text.Numeral.toInt?_ofInt]

theorem colon_notMem_ofInt (k : Int) : ':' ∉ (Text.Numeral.ofInt k).toList :=
  fun h => (Text.Numeral.of_mem_ofInt h).1 rfl

/-- The parts of the text of a key: those of its file, then line, column and name. -/
theorem splitOnChar_text (k : SymbolKey) (h : ':' ∉ k.name.toList) :
    Text.splitOnChar ':' k.text = Text.splitOnChar ':' k.file ++
      [Text.Numeral.ofInt k.line, Text.Numeral.ofInt k.column, k.name] := by
  have htext : k.text.toList = k.file.toList ++
      [(Text.Numeral.ofInt k.line).toList, (Text.Numeral.ofInt k.column).toList,
        k.name.toList].flatMap (':' :: ·) := by
    simp [text]
  have hparts : ∀ part ∈ [(Text.Numeral.ofInt k.line).toList,
      (Text.Numeral.ofInt k.column).toList, k.name.toList], ':' ∉ part := by
    simp [colon_notMem_ofInt, h]
  rw [Text.splitOnChar, htext, Text.splitAtChar_append_parts _ hparts]
  simp [Text.splitOnChar]

/-- A key whose name has no colon can be read back from its text. -/
theorem ofText_text (k : SymbolKey) (h : ':' ∉ k.name.toList) : ofText k.text = .ok k := by
  have hne : Text.splitOnChar ':' k.file ≠ [] := by
    rw [Text.splitOnChar, ne_eq, List.map_eq_nil_iff]
    exact Text.splitAtChar_ne_nil _ _
  obtain ⟨more, first, hparts⟩ :=
    List.eq_nil_or_concat (Text.splitOnChar ':' k.file) |>.resolve_left hne
  have hfile : Text.joinWith ":" (Text.splitOnChar ':' k.file) = k.file := by
    have hjoin := Text.intercalate_splitAtChar ':' k.file.toList
    rw [String.ofList_toList] at hjoin
    exact hjoin
  rw [ofText, splitOnChar_text k h, hparts]
  simp only [List.concat_eq_append, List.reverse_append, List.reverse_cons, List.reverse_nil,
    List.nil_append, List.cons_append]
  rw [whole_ofInt, whole_ofInt]
  simp only [List.reverse_reverse]
  rw [← List.concat_eq_append, ← hparts, hfile]
  rfl

/-- A key that is read has no colon in its name. -/
theorem colon_notMem_of_ofText {s : String} {k : SymbolKey} (h : ofText s = .ok k) :
    ':' ∉ k.name.toList := by
  rw [ofText] at h
  split at h
  · rename_i name column line first more hparts
    have hname : ':' ∉ name.toList := by
      have hmem : name ∈ Text.splitOnChar ':' s := by
        rw [← List.mem_reverse, hparts]
        exact List.mem_cons_self
      obtain ⟨part, hpart, rfl⟩ := List.mem_map.1 hmem
      rw [String.toList_ofList]
      exact Text.notMem_of_mem_splitAtChar hpart
    obtain ⟨l, -, h⟩ := bind_eq_ok.1 h
    obtain ⟨c, -, h⟩ := bind_eq_ok.1 h
    cases h
    exact hname
  · cases h

theorem ofText_text_eq_ok_iff (k : SymbolKey) : ofText k.text = .ok k ↔ ':' ∉ k.name.toList :=
  ⟨colon_notMem_of_ofText, ofText_text k⟩

/-- Keys of one file with one text have one name. -/
theorem name_eq_of_text_eq {k k' : SymbolKey} (hfile : k.file = k'.file) (h : k.text = k'.text) :
    k.name = k'.name := by
  have hrest : (Text.Numeral.ofInt k.line).toList ++ ':' ::
        ((Text.Numeral.ofInt k.column).toList ++ ':' :: k.name.toList) =
      (Text.Numeral.ofInt k'.line).toList ++ ':' ::
        ((Text.Numeral.ofInt k'.column).toList ++ ':' :: k'.name.toList) := by
    have htext := congrArg String.toList h
    simpa [text, hfile] using htext
  have hparts := congrArg (Text.splitAtChar ':') hrest
  rw [Text.splitAtChar_append_cons (colon_notMem_ofInt k.line),
    Text.splitAtChar_append_cons (colon_notMem_ofInt k.column),
    Text.splitAtChar_append_cons (colon_notMem_ofInt k'.line),
    Text.splitAtChar_append_cons (colon_notMem_ofInt k'.column)] at hparts
  simp only [List.cons.injEq] at hparts
  have hname := Text.intercalate_splitAtChar ':' k.name.toList
  have hname' := Text.intercalate_splitAtChar ':' k'.name.toList
  rw [hparts.2.2, hname'] at hname
  simpa using hname.symm

end Redline.SymbolKey
