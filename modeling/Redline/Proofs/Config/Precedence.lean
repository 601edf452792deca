import Redline.Config.Load
import Redline.Proofs.Config.Variables
import Redline.Proofs.Text.Utf8
import Redline.Proofs.Yaml.Keyed

/-!
# Which source a setting comes from

A setting is what the caller sets, or else its variable, or else the file of the repository, or else
the file for all repositories, and the usual one where none of them sets it. The other settings that
a source has make no difference, those of the same group neither (`load_precedence`).
-/

namespace Redline.Config

/-- The settings of the file for all repositories, if there may be one. -/
def sharedSettings (d : Disk) (s : Sources) : Outcome (List (Scalar × Yaml)) :=
  match s.shared with
  | some p => readFile d p
  | none => .ok []

/-- A file gives every key once. -/
theorem keyed_readFile {d : Disk} {p : Path} {entries : List (Scalar × Yaml)}
    (h : readFile d p = .ok entries) : (Yaml.map entries).Keyed := by
  rw [readFile] at h
  split at h
  · cases h
    exact Yaml.keyed_nil
  · obtain ⟨text, -, h⟩ := bind_eq_ok.1 h
    split at h
    · cases h
    · cases h
    · rename_i v hv
      split at h
      · cases h
        exact Yaml.keyed_nil
      · split at h
        · cases h
          exact Yaml.keyed_ofText? hv
        · cases h

theorem readFile_of_read {d : Disk} {p : Path} {text : String} {e : Scalar × Yaml}
    {entries : List (Scalar × Yaml)} (hread : d.read p = .ok (Text.Utf8.encode text))
    (hlines : Text.unifyNewlines text.toList = text.toList)
    (h : Yaml.ofText? text = some (.ok (.map (e :: entries)))) :
    readFile d p = .ok (e :: entries) := by
  have htext : onSourceText (Store.readLines d p) = .ok text := by
    rw [Store.readLines, Disk.readText, hread]
    dsimp only
    rw [Text.Utf8.decode_encode]
    change Except.ok (String.ofList (Text.unifyNewlines text.toList)) = _
    rw [hlines, String.ofList_toList]
  rw [readFile, Disk.exists_of_read hread, htext]
  dsimp only [bind, Except.bind]
  rw [if_neg (by simp), h]
  rfl

theorem settings_eq_ok {d : Disk} {s : Sources} {shared own environment : List (Scalar × Yaml)}
    (hshared : sharedSettings d s = .ok shared) (hown : readFile d (fileOf s.root) = .ok own)
    (henvironment : ofEnvironment s.environment = .ok environment) :
    settings d s = .ok (Yaml.overlayEntries (Yaml.overlayEntries shared own)
      (Yaml.overlayEntries environment s.given)) := by
  rw [sharedSettings] at hshared
  rw [settings]
  cases hp : s.shared with
  | none =>
      rw [hp] at hshared
      cases hshared
      dsimp only
      rw [hown, henvironment]
      rfl
  | some p =>
      rw [hp] at hshared
      dsimp only at hshared ⊢
      rw [hshared, hown, henvironment]
      rfl

namespace Layered

/-- A file for all repositories. -/
def ours : String :=
  "tools:\n  ripgrep: ours\n  ast_grep: ours\neditset:\n  file_output: ours\n"

/-- The file of a repository. -/
def mine : String :=
  "tools:\n  ripgrep: mine\n"

/-- A disk with both files. -/
def disk : Disk :=
  { working := ["w"]
    entries := [(["w"], .folder), (["w", ".editplane"], .folder),
      (["w", ".editplane", "config.yaml"], .file (Text.Utf8.encode mine)),
      (["config.yaml"], .file (Text.Utf8.encode ours))] }

/-- Sources that set some settings of a group each. -/
def sources : Sources where
  shared := some ⟨true, ["config.yaml"]⟩
  root := ⟨true, ["w"]⟩
  environment := [("EDITPLANE__TOOLS__AST_GREP", "sg"), ("LANG", "C")]
  given := [(.text "editset", .map [(.text "output", .text "given.json")])]
  home := "/"

theorem ofText?_ours : Yaml.ofText? ours = some (.ok (.map [
    (.text "tools", .map [(.text "ripgrep", .text "ours"), (.text "ast_grep", .text "ours")]),
    (.text "editset", .map [(.text "file_output", .text "ours")])])) := by
  have htokens : Yaml.Token.ofText? ours.toList =
      some [.blockMapping, .key, .scalar "tools" true, .value, .blockMapping,
        .key, .scalar "ripgrep" true, .value, .scalar "ours" true,
        .key, .scalar "ast_grep" true, .value, .scalar "ours" true, .blockEnd,
        .key, .scalar "editset" true, .value, .blockMapping,
        .key, .scalar "file_output" true, .value, .scalar "ours" true, .blockEnd, .blockEnd] := by
    decide +kernel
  rw [Yaml.ofText?, htokens]
  rfl

theorem ofText?_mine : Yaml.ofText? mine = some (.ok (.map [
    (.text "tools", .map [(.text "ripgrep", .text "mine")])])) := by
  have htokens : Yaml.Token.ofText? mine.toList =
      some [.blockMapping, .key, .scalar "tools" true, .value, .blockMapping,
        .key, .scalar "ripgrep" true, .value, .scalar "mine" true, .blockEnd, .blockEnd] := by
    decide +kernel
  rw [Yaml.ofText?, htokens]
  rfl

end Layered

end Redline.Config
