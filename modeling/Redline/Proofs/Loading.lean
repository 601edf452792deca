import Mathlib
import Redline.Proofs.Record
import Redline.Proofs.Store

/-!
# What loading says of a file

Loading is to say of every path what is wrong with it: that nothing is there, or that what is there
does not hold a record. It does so unless the path leads to a directory, the octets of the file are
not UTF-8, or the record meets an infinite number where a whole one belongs.
-/

namespace Redline

open Record

/-- A path leads to nothing, to a directory or to a file. -/
theorem Disk.read_cases (d : Disk) (p : Path) :
    (d.exists_ p = false ∧ d.isFolder p = false ∧ ∀ c, d.read p ≠ .ok c) ∨
      (d.exists_ p = true ∧ d.isFolder p = true ∧ d.read p = .error (.isFolder p)) ∨
        d.isFolder p = false ∧ ∃ c, d.read p = .ok c := by
  rw [exists_, isFolder, read, entry?]
  cases d.find p with
  | missing => exact .inl ⟨rfl, rfl, by rintro c ⟨⟩⟩
  | notFolder => exact .inl ⟨rfl, rfl, by rintro c ⟨⟩⟩
  | «at» place =>
      dsimp only
      cases d.entryAt place with
      | none => exact .inl ⟨rfl, rfl, by rintro c ⟨⟩⟩
      | some e =>
          cases e with
          | folder => exact .inr (.inl ⟨rfl, rfl, rfl⟩)
          | file c => exact .inr (.inr ⟨rfl, c, rfl⟩)

namespace Store

/-- The octets are the text of a document with these members. -/
def IsDocument (c : Bytes) (members : List (String × Json)) : Prop :=
  ∃ text, Text.Utf8.decode c = .ok text ∧
    Json.parse (String.ofList (Text.unifyNewlines text.toList)) = .ok (.obj members)

section

variable {α : Type} {ofJson : Json → Except Mishap α} {d : Disk} {p : Path} {c : Bytes}

/-- The octets hold a record. -/
def Holds (ofJson : Json → Except Mishap α) (c : Bytes) (a : α) : Prop :=
  ∃ members, IsDocument c members ∧ ofJson (.obj members) = .ok a

/-- The outcome of loading tells what is at the path: nothing, a record or something else. -/
structure Reports (ofJson : Json → Except Mishap α) (d : Disk) (p : Path) (o : Outcome α) :
    Prop where
  missing : d.exists_ p = false → o = failWith (.editsetMissing p.toString)
  record : ∀ c a, d.read p = .ok c → Holds ofJson c a → o = .ok a
  malformed : ∀ c, d.read p = .ok c → (∀ a, ¬ Holds ofJson c a) →
    ∃ reason, o = failWith (.editsetMalformed p.toString reason)
  nothingElse : (∃ a, o = .ok a) ∨ ∃ f, o = failWith f ∧ f.area = "EditsetError"

theorem IsDocument.unique {members members' : List (String × Json)} (h : IsDocument c members)
    (h' : IsDocument c members') : members' = members := by
  obtain ⟨text, htext, hparse⟩ := h
  obtain ⟨text', htext', hparse'⟩ := h'
  rw [htext] at htext'
  obtain rfl := Except.ok.inj htext'
  rw [hparse] at hparse'
  exact Json.obj.inj (Except.ok.inj hparse'.symm)

theorem load_of_missing (h : d.exists_ p = false) :
    load ofJson d p = failWith (.editsetMissing p.toString) := by
  rw [load, h]
  rfl

theorem load_of_readText (h : d.exists_ p = true) {fault : Disk.SourceFault}
    (htext : d.readText p = .error fault) :
    load ofJson d p = onSourceText (.error fault) := by
  rw [load, h, readLines, htext]
  cases fault <;> rfl

theorem load_of_folder (h : d.exists_ p = true) (hread : d.read p = .error (.isFolder p)) :
    load ofJson d p = mishapWith (.disk (.isFolder p)) := by
  have htext : d.readText p = .error (.disk (.isFolder p)) := by rw [Disk.readText, hread]
  exact load_of_readText h htext

theorem load_of_decode {fault : Text.Utf8.Fault} (hread : d.read p = .ok c)
    (hdecode : Text.Utf8.decode c = .error fault) :
    load ofJson d p = mishapWith (.encoding fault) := by
  have htext : d.readText p = .error (.encoding fault) := by
    rw [Disk.readText, hread]
    dsimp only
    rw [hdecode]
    rfl
  exact load_of_readText (Disk.exists_of_read hread) htext

/-- A document whose record can be read or stops by what is reported. -/
theorem load_of_isDocument {members : List (String × Json)} (hread : d.read p = .ok c)
    (hdocument : IsDocument c members) :
    load ofJson d p = match ofJson (.obj members) with
      | .ok a => .ok a
      | .error m =>
        if isShapeFault m then
          failWith (.editsetMalformed p.toString ("missing or invalid field: " ++ m.message))
        else mishapWith m := by
  obtain ⟨text, hdecode, hparse⟩ := hdocument
  rw [load, Disk.exists_of_read hread, readLines, Disk.readText, hread]
  dsimp only
  rw [hdecode]
  dsimp only [onSourceText, bind, Except.bind, Except.mapError, pure, Except.pure]
  rw [hparse]
  rfl

/-- A text that is no document with members is reported. -/
theorem load_of_not_isDocument {text : String} (hread : d.read p = .ok c)
    (hdecode : Text.Utf8.decode c = .ok text) (h : ∀ members, ¬ IsDocument c members) :
    ∃ reason, load ofJson d p = failWith (.editsetMalformed p.toString reason) := by
  rw [load, Disk.exists_of_read hread, readLines, Disk.readText, hread]
  dsimp only
  rw [hdecode]
  dsimp only [onSourceText, bind, Except.bind, Except.mapError, pure, Except.pure]
  cases hparse : Json.parse (String.ofList (Text.unifyNewlines text.toList)) with
  | error reason => exact ⟨reason, rfl⟩
  | ok j =>
      cases j with
      | obj members => exact absurd ⟨text, hdecode, hparse⟩ (h members)
      | _ => exact ⟨_, rfl⟩

/-- A mishap is not reported. -/
theorem Reports.ne_mishap {m : Mishap} {o : Outcome α} (h : Reports ofJson d p o) :
    o ≠ mishapWith m := by
  rintro rfl
  obtain ⟨a, ⟨⟩⟩ | ⟨f, ⟨⟩, -⟩ := h.nothingElse

theorem Holds.unique {a a' : α} (h : Holds ofJson c a) (h' : Holds ofJson c a') : a' = a := by
  obtain ⟨members, hdocument, hread⟩ := h
  obtain ⟨members', hdocument', hread'⟩ := h'
  rw [hdocument.unique hdocument', hread] at hread'
  exact (Except.ok.inj hread').symm

theorem reports_missing (h : d.exists_ p = false) : Reports ofJson d p (load ofJson d p) := by
  have hread : ∀ c, d.read p ≠ .ok c := by
    intro c hc
    rw [Disk.exists_of_read hc] at h
    cases h
  rw [load_of_missing h]
  exact ⟨fun _ => rfl, fun c _ hc => absurd hc (hread c), fun c hc => absurd hc (hread c),
    .inr ⟨_, rfl, rfl⟩⟩

theorem reports_record {a : α} (hread : d.read p = .ok c) (h : Holds ofJson c a) :
    Reports ofJson d p (.ok a) := by
  refine ⟨fun hmissing => ?_, fun c' a' hc' h' => ?_, fun c' hc' h' => ?_, .inl ⟨a, rfl⟩⟩
  · rw [Disk.exists_of_read hread] at hmissing
    cases hmissing
  · obtain rfl := Except.ok.inj (hread.symm.trans hc')
    rw [h.unique h']
  · obtain rfl := Except.ok.inj (hread.symm.trans hc')
    exact absurd h (h' a)

theorem reports_malformed {reason : String} (hread : d.read p = .ok c)
    (h : ∀ a, ¬ Holds ofJson c a) :
    Reports ofJson d p (failWith (.editsetMalformed p.toString reason)) := by
  refine ⟨fun hmissing => ?_, fun c' a hc' h' => ?_, fun c' hc' h' => ⟨reason, rfl⟩,
    .inr ⟨_, rfl, rfl⟩⟩
  · rw [Disk.exists_of_read hread] at hmissing
    cases hmissing
  · obtain rfl := Except.ok.inj (hread.symm.trans hc')
    exact absurd h' (h a)

/-- A file is reported where its octets are UTF-8 and its record does not overflow. -/
theorem reports_file {text : String} (hstops : ∀ j, StopsBy IsFault (ofJson j))
    (hread : d.read p = .ok c) (hdecode : Text.Utf8.decode c = .ok text)
    (hover : ∀ members, IsDocument c members → ¬ Overflows (ofJson (.obj members))) :
    Reports ofJson d p (load ofJson d p) := by
  by_cases hdocument : ∃ members, IsDocument c members
  · obtain ⟨members, hdocument⟩ := hdocument
    rw [load_of_isDocument hread hdocument]
    cases hrecord : ofJson (.obj members) with
    | ok a => exact reports_record hread ⟨members, hdocument, hrecord⟩
    | error m =>
        have hshape : isShapeFault m = true := by
          refine (hstops _ m hrecord).resolve_right ?_
          rintro ⟨message, rfl⟩
          exact hover members hdocument ⟨message, hrecord⟩
        dsimp only
        rw [if_pos hshape]
        refine reports_malformed hread ?_
        rintro a ⟨members', hdocument', hrecord'⟩
        rw [hdocument.unique hdocument', hrecord] at hrecord'
        cases hrecord'
  · rw [not_exists] at hdocument
    obtain ⟨reason, hload⟩ := load_of_not_isDocument hread hdecode hdocument
    rw [hload]
    exact reports_malformed hread fun a ⟨members, h, _⟩ => hdocument members h

/-- Loading reports unless the path leads to a directory, the octets are not UTF-8 or the record
overflows. -/
theorem reports_load_iff (hstops : ∀ j, StopsBy IsFault (ofJson j)) :
    Reports ofJson d p (load ofJson d p) ↔
      d.isFolder p = false ∧ ∀ c, d.read p = .ok c → (∃ text, Text.Utf8.decode c = .ok text) ∧
        ∀ members, IsDocument c members → ¬ Overflows (ofJson (.obj members)) := by
  constructor
  · intro h
    refine ⟨?_, fun c hread => ⟨?_, ?_⟩⟩
    · obtain ⟨-, hfolder, -⟩ | ⟨hexists, -, hread⟩ | ⟨hfolder, -⟩ := d.read_cases p
      · exact hfolder
      · exact absurd (load_of_folder hexists hread) h.ne_mishap
      · exact hfolder
    · cases hdecode : Text.Utf8.decode c with
      | ok text => exact ⟨text, rfl⟩
      | error fault => exact absurd (load_of_decode hread hdecode) h.ne_mishap
    · rintro members hdocument ⟨message, hover⟩
      rw [load_of_isDocument hread hdocument, hover] at h
      exact h.ne_mishap rfl
  · rintro ⟨hfolder, hfile⟩
    obtain ⟨hexists, -⟩ | ⟨-, hfolder', -⟩ | ⟨-, c, hread⟩ := d.read_cases p
    · exact reports_missing hexists
    · rw [hfolder] at hfolder'
      cases hfolder'
    · obtain ⟨⟨text, hdecode⟩, hover⟩ := hfile c hread
      exact reports_file hstops hread hdecode hover

end

/-- An editset with a reference whose range starts nowhere. -/
def endless : String :=
  "\x7b\"id\":\"e\",\"operation\":\"rename\",\"from\":\"a\",\"to\":\"b\"," ++
    "\"refs\":[\x7b\"range\":[Infinity]\x7d]\x7d"

/-- A disk with a file that is not UTF-8 and with this editset. -/
def oddDisk : Disk :=
  { working := []
    entries := [(["w"], .folder), (["w", "l.json"], .file [0xFF]),
      (["w", "e.json"], .file (Text.Utf8.encode endless))] }

theorem isDocument_endless : IsDocument (Text.Utf8.encode endless)
    [("id", .str "e"), ("operation", .str "rename"), ("from", .str "a"), ("to", .str "b"),
      ("refs", .arr [.obj [("range", .arr [.float (.infinite false)])]])] :=
  ⟨endless, Text.Utf8.decode_encode _, by cbv⟩

end Store

end Redline
