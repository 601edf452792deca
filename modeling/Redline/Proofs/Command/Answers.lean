import Redline.Proofs.Command.Gives

/-!
# Answers are documents

Every request is answered by a document that can be printed, or stopped by trouble whose report can
be. The references that are printed were made here, so their previews are texts; of what is read
from a file nothing is printed but counts and texts that were checked.
-/

namespace Redline

/-! ### Records and patterns -/

theorem Pattern.returns_compile (text : String) (ignoreCase : Bool) :
    Returns (fun _ => True) (compile text ignoreCase) := by
  rw [compile]
  split
  · exact trivial
  · exact returns_failWith (by simp [Failure.code])
  · exact returns_mishapWith _
  · exact returns_mishapWith _
  · exact returns_mishapWith _

theorem Store.returns_load {α : Type} (ofJson : Json → Except Mishap α) (d : Disk) (p : Path) :
    Returns (fun _ => True) (load ofJson d p) := by
  have hmalformed : ∀ reason, Returns (fun _ : α => True)
      (failWith (.editsetMalformed p.toString reason)) :=
    fun reason => returns_failWith (by simp [Failure.code])
  rw [load]
  dsimp only
  split
  · exact returns_failWith (by simp [Failure.code])
  · refine (returns_onSourceText _).bind fun text _ => ?_
    split
    · exact hmalformed _
    · split
      · split
        · exact trivial
        · split
          · exact hmalformed _
          · exact returns_mishapWith _
      · exact hmalformed _

theorem Editset.returns_load (d : Disk) (p : Path) : Returns (fun _ => True) (load d p) := by
  refine (Store.returns_load _ d p).bind fun e _ => ?_
  cases e.check with
  | ok e => exact trivial
  | error m => exact returns_mishapWith m

theorem FileEditset.returns_load (d : Disk) (p : Path) : Returns (fun _ => True) (load d p) := by
  refine (Store.returns_load _ d p).bind fun e _ => ?_
  cases e.check with
  | ok e => exact trivial
  | error m => exact returns_mishapWith m

theorem Registry.returns_selectPattern (r : Registry) (pattern asked : String) :
    Returns (fun _ => True) (r.selectPattern pattern asked) := by
  rw [selectPattern, require]
  split
  · exact returns_failWith (by simp [Failure.code])
  · split
    · exact trivial
    · exact returns_failWith (by simp [Failure.code])

/-! ### Questions to the project -/

namespace Project

theorem gives_listFiles : Gives (fun _ => True) listFiles := by
  refine gives_get.bind fun p _ => ?_
  split
  · exact gives_pure trivial
  · exact gives_read.bind fun d _ => (gives_set _).bind fun _ _ => gives_pure trivial

theorem returns_parseFile (p : Project) (d : Disk) (file : String) :
    Returns (fun _ => True) (p.parseFile d file) :=
  (returns_onDisk fun _ _ => trivial).bind fun _ (_ : True) => trivial

theorem gives_source? (name : String) : Gives (fun _ => True) (source? name) := by
  refine gives_get.bind fun p _ => ?_
  split
  · exact gives_pure trivial
  · refine gives_listFiles.bind fun files _ => ?_
    split
    · exact gives_get.bind fun p _ => gives_read.bind fun d _ =>
        (gives_lift (returns_parseFile p d _)).bind fun s _ => (gives_set _).bind fun _ _ =>
          gives_pure trivial
    · exact gives_pure trivial

theorem gives_theIndex : Gives (fun _ => True) theIndex := by
  refine gives_get.bind fun p _ => ?_
  split
  · exact gives_pure trivial
  · exact gives_listFiles.bind fun files _ => (Gives.filterMapM files gives_source?).bind
      fun sources _ => (gives_modify _).bind fun _ _ => gives_pure trivial

theorem gives_resolve (file : String) (line column : Int) :
    Gives (fun _ => True) (resolve file line column) := by
  refine (gives_source? file).bind fun source _ => ?_
  split
  · exact gives_pure trivial
  · split
    · exact gives_pure trivial
    · exact gives_theIndex.bind fun x _ => gives_pure trivial

theorem gives_symbolAt (file : String) (line column : Int) :
    Gives (fun _ => True) (symbolAt file line column) := by
  refine (gives_resolve file line column).bind fun found _ => ?_
  split
  · exact gives_pure trivial
  · exact gives_theIndex.bind fun x _ => gives_pure trivial

theorem isText_of_mem_references {x : Index} {t : Target} {r : Reference}
    (h : r ∈ x.references t) : r.preview.IsText := by
  obtain ⟨place, -, hplace⟩ := List.mem_filterMap.1 h
  obtain ⟨s, -, rfl⟩ := Option.map_eq_some_iff.1 hplace
  exact ⟨_, rfl⟩

theorem gives_references (key : String) :
    Gives (fun refs => ∀ r ∈ refs, r.preview.IsText) (references key) := by
  rw [references]
  split
  · exact gives_pure (List.forall_mem_nil _)
  · refine (gives_resolve _ _ _).bind fun found _ => ?_
    split
    · exact gives_pure (List.forall_mem_nil _)
    · split
      · exact gives_pure (List.forall_mem_nil _)
      · exact gives_theIndex.bind fun x _ => gives_pure fun r => isText_of_mem_references

theorem gives_find (pattern : Pattern) : Gives (fun _ => True) (find pattern) :=
  gives_theIndex.bind fun _ _ => gives_pure trivial

theorem gives_rename (now : Moment) (key new : String) :
    Gives (fun _ => True) (rename now key new) := by
  refine (gives_references key).bind fun refs _ => ?_
  split
  · exact gives_lift (returns_failWith (by simp [Failure.code]))
  · exact gives_lift (returns_failWith (by simp [Failure.code]))
  · exact gives_theIndex.bind fun x _ => gives_pure trivial

theorem gives_batchPart (x : Index) (pattern : Pattern) (replacement : String)
    (skip : List String) (m : SymbolMatch) :
    Gives (fun _ => True) (batchPart x pattern replacement skip m) := by
  rw [batchPart]
  split
  · exact gives_pure trivial
  · exact (gives_references _).bind fun refs _ => gives_pure trivial

theorem gives_renameBatch (now : Moment) (text replacement : String) (skip : List String) :
    Gives (fun _ => True) (renameBatch now text replacement skip) :=
  (gives_lift (Pattern.returns_compile text true)).bind fun pattern _ =>
    gives_theIndex.bind fun x _ =>
      (Gives.mapM _ (gives_batchPart x pattern replacement skip)).bind fun _ _ =>
        gives_pure trivial

theorem gives_checkConflicts (text replacement : String) :
    Gives (fun _ => True) (checkConflicts text replacement) :=
  (gives_lift (Pattern.returns_compile text true)).bind fun _ _ =>
    gives_theIndex.bind fun _ _ => gives_pure trivial

end Project

/-! ### Searches -/

namespace Search

theorem gives_locate (name : String) : Gives (fun _ => True) (locate name) :=
  gives_get.bind fun _ _ => (gives_set _).bind fun _ _ => gives_read.bind fun _ _ =>
    gives_pure trivial

theorem gives_execute (command : List String) : Gives (fun _ => True) (execute command) :=
  gives_get.bind fun _ _ => (gives_set _).bind fun _ _ => gives_read.bind fun _ _ =>
    gives_pure trivial

theorem gives_identifies (path : String) : Gives (fun _ => True) (identifies path) := by
  refine gives_get.bind fun s _ => ?_
  split
  · exact gives_pure trivial
  · refine (gives_execute _).bind fun x _ => ?_
    split <;> exact gives_pure trivial

theorem gives_firstFitting (names : List String) :
    Gives (fun _ => True) (firstFitting names) := by
  induction names with
  | nil => exact gives_pure trivial
  | cons c rest ih =>
      refine (gives_locate c).bind fun found _ => ?_
      split
      · exact ih
      · refine (gives_identifies _).bind fun fits _ => ?_
        split
        · exact gives_pure trivial
        · exact ih

theorem gives_missing {α : Type} (tool : Tool) (executable : String) :
    Gives (fun _ : α => True) (missing tool executable) :=
  gives_throw (by simp [Failure.code])

theorem gives_resolve : Gives (fun _ => True) resolve := by
  refine gives_get.bind fun s _ => ?_
  dsimp only
  split
  · exact gives_pure trivial
  · refine (gives_firstFitting _).bind fun found _ => ?_
    split
    · exact (gives_modify _).bind fun _ _ => gives_pure trivial
    · split
      · exact gives_missing _ _
      · exact gives_pure trivial

theorem gives_run (args : List String) : Gives (fun _ => True) (run args) := by
  refine gives_resolve.bind fun executable _ => (gives_execute _).bind fun x _ => ?_
  split
  · exact gives_pure trivial
  · exact gives_get.bind fun s _ => gives_missing _ _

theorem returns_parseRecord (tool line : String) :
    Returns (fun _ => True) (parseRecord tool line) := by
  rw [parseRecord]
  split
  · exact trivial
  · exact returns_failWith (by simp [Failure.code])

theorem isText_of_matchOn {pattern : String} {l : MatchLine} {sub : Json} {m : TextMatch}
    (h : matchOn pattern l sub = .ok m) : m.ref.preview.IsText := by
  rw [matchOn] at h
  obtain ⟨first, -, h⟩ := bind_eq_ok.1 h
  obtain ⟨start, -, h⟩ := bind_eq_ok.1 h
  obtain ⟨last, -, h⟩ := bind_eq_ok.1 h
  obtain ⟨stop, -, h⟩ := bind_eq_ok.1 h
  obtain ⟨covering, -, h⟩ := bind_eq_ok.1 h
  obtain ⟨covered, -, h⟩ := bind_eq_ok.1 h
  dsimp only at h
  split at h
  all_goals
    obtain ⟨text, -, h⟩ := bind_eq_ok.1 h
    rw [← Except.ok.inj h]
    exact ⟨_, rfl⟩

theorem returns_matchesOf (d : Disk) (root : Path) (pattern : String) (record : Json) :
    Returns (fun ms => ∀ m ∈ ms, m.ref.preview.IsText) (matchesOf d root pattern record) := by
  have hread : ∀ {α : Type} (e : Except Mishap α), Returns (fun _ => True) (onRecord e) :=
    fun e => returns_onRecord fun _ _ => trivial
  refine (hread _).bind fun kind _ => ?_
  split
  · exact List.forall_mem_nil _
  · refine (hread _).bind fun data _ => (hread _).bind fun path _ =>
      (hread _).bind fun named _ => ?_
    split
    · exact List.forall_mem_nil _
    · refine (hread _).bind fun lines _ => (hread _).bind fun shown _ => ?_
      split
      · exact List.forall_mem_nil _
      · refine (hread _).bind fun name _ => (hread _).bind fun file _ => ?_
        dsimp only
        split
        · exact List.forall_mem_nil _
        · refine (returns_onSourceText _).bind fun content _ => (hread _).bind fun line _ =>
            (hread _).bind fun text _ => (hread _).bind fun number _ => (hread _).bind fun n _ =>
              (hread _).bind fun listed _ => (hread _).bind fun subs _ => ?_
          exact Returns.mapM fun sub _ => returns_onRecord fun m => isText_of_matchOn

theorem returns_textMatches (d : Disk) (root : Path) (pattern output : String) :
    Returns (fun ms => ∀ m ∈ ms, m.ref.preview.IsText) (textMatches d root pattern output) := by
  have hlines : Returns (fun found => ∀ ms ∈ found, ∀ m ∈ ms, m.ref.preview.IsText)
      ((recordLines output).mapM fun line => do
        matchesOf d root pattern (← parseRecord "ripgrep" line)) :=
    Returns.mapM fun line _ => (returns_parseRecord _ line).bind fun record _ =>
      returns_matchesOf d root pattern record
  refine hlines.bind fun found hfound m hm => ?_
  obtain ⟨ms, hms, hm⟩ := List.mem_flatten.1 hm
  exact hfound ms hms m hm

theorem gives_searchText (d : Disk) (root : Path) (pattern : String) (glob : Option String) :
    Gives (fun ms => ∀ m ∈ ms, m.ref.preview.IsText) (searchText d root pattern glob) := by
  refine (gives_run _).bind fun x _ => ?_
  split
  · exact gives_pure (List.forall_mem_nil _)
  · split
    · exact gives_get.bind fun s _ => gives_throw (by simp [Failure.code])
    · exact gives_lift (returns_textMatches d root pattern _)

theorem gives_findText (d : Disk) (root : Path) (pattern : String) (glob : Option String) :
    Gives (fun refs => ∀ r ∈ refs, r.preview.IsText) (findText d root pattern glob) :=
  (gives_searchText d root pattern glob).bind fun _ hms =>
    gives_pure (List.forall_mem_map.2 hms)

theorem returns_textEdit (d : Disk) (root : Path) (p : Pattern) (replacement : String)
    (m : TextMatch) : Returns (fun _ => True) (textEdit d root p replacement m) := by
  refine (returns_onSourceText _).bind fun content _ => ?_
  split
  · exact returns_failWith (by simp [Failure.code])
  · split
    · exact returns_mishapWith _
    · exact trivial

theorem gives_replaceText (d : Disk) (root : Path) (now : Moment) (pattern replacement : String)
    (glob : Option String) :
    Gives (fun _ => True) (replaceText d root now pattern replacement glob) :=
  (gives_lift (Pattern.returns_compile pattern false)).bind fun p _ =>
    (gives_searchText d root pattern glob).bind fun _ _ =>
      (gives_lift (Returns.mapM fun m _ => returns_textEdit d root p replacement m)).bind
        fun _ _ => gives_pure trivial

theorem isText_of_matchIn {file content : String} {bytes : Bytes} {octets record : Json}
    {m : StructureMatch} (h : matchIn file bytes content octets record = .ok m) :
    m.ref.preview.IsText := by
  rw [matchIn] at h
  obtain ⟨first, -, h⟩ := bind_eq_ok.1 h
  obtain ⟨start, -, h⟩ := bind_eq_ok.1 h
  obtain ⟨last, -, h⟩ := bind_eq_ok.1 h
  obtain ⟨stop, -, h⟩ := bind_eq_ok.1 h
  dsimp only at h
  obtain ⟨captures, -, h⟩ := bind_eq_ok.1 h
  rw [← Except.ok.inj h]
  exact ⟨_, rfl⟩

theorem returns_placeOf (tool line : String) (record : Json) :
    Returns (fun _ => True) (placeOf tool line record) := by
  rw [placeOf]
  dsimp only
  split
  · exact trivial
  · split
    · exact returns_failWith (by simp [Failure.code])
    · exact returns_failWith (by simp [Failure.code])
    · exact returns_mishapWith _

theorem returns_structureMatch? (d : Disk) (root : Path) (line : String) :
    Returns (fun m => ∀ m' ∈ m, m'.ref.preview.IsText) (structureMatch? d root line) := by
  refine (returns_parseRecord _ line).bind fun record _ => (returns_placeOf _ line record).bind
    fun place _ => ?_
  obtain ⟨file, octets⟩ := place
  dsimp only
  split
  · rintro m ⟨⟩
  · refine (returns_onDisk fun _ _ => trivial).bind fun bytes (_ : True) =>
      (returns_onSourceText _).bind fun content _ => ?_
    refine (returns_onRecord fun m => isText_of_matchIn).bind fun m hm m' hm' => ?_
    obtain rfl := Option.some.inj hm'
    exact hm

theorem returns_structureMatches (d : Disk) (root : Path) (output : String) :
    Returns (fun ms => ∀ m ∈ ms, m.ref.preview.IsText) (structureMatches d root output) := by
  refine (Returns.mapM fun line _ => returns_structureMatch? d root line).bind
    fun found hfound m hm => ?_
  obtain ⟨m', hm', hm⟩ := List.mem_flatMap.1 hm
  exact hfound m' hm' m (Option.mem_toList.1 hm)

theorem gives_searchStructure (d : Disk) (root : Path) (pattern : String) (glob : Option String) :
    Gives (fun ms => ∀ m ∈ ms, m.ref.preview.IsText) (searchStructure d root pattern glob) := by
  refine (gives_run _).bind fun x _ => ?_
  dsimp only
  split
  · exact gives_pure (List.forall_mem_nil _)
  · split
    · exact gives_get.bind fun s _ => gives_throw (by simp [Failure.code])
    · exact gives_lift (returns_structureMatches d root _)

theorem gives_findStructure (d : Disk) (root : Path) (pattern : String) (glob : Option String) :
    Gives (fun refs => ∀ r ∈ refs, r.preview.IsText) (findStructure d root pattern glob) :=
  (gives_searchStructure d root pattern glob).bind fun _ hms =>
    gives_pure (List.forall_mem_map.2 hms)

theorem gives_replaceStructure (d : Disk) (root : Path) (now : Moment)
    (pattern replacement : String) (glob : Option String) :
    Gives (fun _ => True) (replaceStructure d root now pattern replacement glob) :=
  (gives_searchStructure d root pattern glob).bind fun _ _ => gives_pure trivial

end Search

/-! ### Requests -/

namespace Command

open Json

theorem gives_theDisk : Gives (fun _ => True) theDisk :=
  gives_get.bind fun _ _ => gives_pure trivial

theorem gives_change (step : Disk → Except DiskFault Disk) :
    Gives (fun _ => True) (change step) :=
  gives_get.bind fun _ _ => (gives_lift (returns_onDisk fun _ _ => trivial)).bind
    fun _ (_ : True) => gives_set _

theorem gives_ask {α : Type} {P : α → Prop} {q : Query α} (h : Gives P q) : Gives P (ask q) :=
  gives_read.bind fun _ _ => gives_theDisk.bind fun d _ => gives_lift (h.returns d _)

theorem gives_search {α : Type} {P : α → Prop} {tool : Search.Tool} {q : Search.Step α}
    (h : Gives P q) : Gives P (search tool q) := by
  refine ⟨fun s t => ?_⟩
  exact h.returns s.surroundings.host { tool, asked := 0, calls := [] }

theorem returns_needSymbols (c : Capability) (file : Option String) :
    Returns (fun _ => True) (needSymbols c file) := by
  delta needSymbols
  -- the answer does not depend on which backends there are
  generalize Registry.standard = r
  cases file with
  | none =>
      dsimp only
      split_ifs
      · exact trivial
      · exact returns_failWith (by simp [Failure.code])
  | some file =>
      dsimp only
      cases r.forFile? file with
      | none => exact returns_failWith (by simp [Failure.code])
      | some b =>
          dsimp only
          split_ifs
          · exact trivial
          · exact returns_failWith (by simp [Failure.code])

theorem gives_needSymbols (c : Capability) (file : Option String) :
    Gives (fun _ => True) (liftM (needSymbols c file) : Action Unit) :=
  gives_lift (returns_needSymbols c file)

theorem gives_needSymbolsOfKey (c : Capability) (key : String) :
    Gives (fun _ => True) (liftM (needSymbolsOfKey c key) : Action Unit) :=
  gives_needSymbols c _

theorem gives_outputPath (given : Option String) (usual : String) :
    Gives (fun _ => True) (outputPath given usual) := by
  rw [outputPath]
  split
  · exact gives_pure trivial
  · exact gives_read.bind fun _ _ => gives_pure trivial

theorem gives_answerSymbolAt (file : String) (line column : Int) :
    Gives IsPrintable (answerSymbolAt file line column) := by
  refine gives_theDisk.bind fun d _ => gives_read.bind fun s _ => ?_
  split
  · exact gives_throw (by simp [Failure.code])
  · refine (gives_needSymbols _ _).bind fun _ _ =>
      (gives_ask (Project.gives_symbolAt file line column)).bind fun found _ => ?_
    split
    · exact gives_pure (Symbol.isPrintable_toJson _)
    · exact gives_throw (by simp [Failure.code])

theorem gives_answerReferences (key : String) : Gives IsPrintable (answerReferences key) := by
  refine (gives_needSymbolsOfKey _ _).bind fun _ _ =>
    (gives_ask (Project.gives_references key)).bind fun refs hrefs => gives_pure ?_
  exact isPrintable_arr_iff.2 (List.forall_mem_map.2 fun r hr =>
    Reference.isPrintable_toJson (hrefs r hr))

theorem gives_answerFindSymbols (pattern : String) :
    Gives IsPrintable (answerFindSymbols pattern) := by
  refine (gives_needSymbols _ _).bind fun _ _ =>
    (gives_lift (Pattern.returns_compile pattern true)).bind fun p _ =>
      (gives_ask (Project.gives_find p)).bind fun found _ => gives_pure ?_
  simp

theorem gives_answerRename (key new : String) (output : Option String) :
    Gives IsPrintable (answerRename key new output) := by
  refine (gives_needSymbolsOfKey _ _).bind fun _ _ => gives_read.bind fun s _ =>
    (gives_ask (Project.gives_rename _ key new)).bind fun e _ =>
      (gives_outputPath _ _).bind fun p _ => (gives_change _).bind fun _ _ => gives_pure ?_
  simp [summary]

theorem gives_answerRenameBatch (pattern replacement : String) (output skip : Option String)
    (onlyCheck : Bool) :
    Gives IsPrintable (answerRenameBatch pattern replacement output skip onlyCheck) := by
  rw [answerRenameBatch]
  split
  · exact (gives_needSymbols _ _).bind fun _ _ =>
      (gives_ask (Project.gives_checkConflicts pattern replacement)).bind fun r _ =>
        gives_pure r.isPrintable_toJson
  · refine (gives_needSymbols _ _).bind fun _ _ => gives_read.bind fun s _ =>
      (gives_ask (Project.gives_renameBatch _ pattern replacement _)).bind fun e _ =>
        (gives_outputPath _ _).bind fun p _ => (gives_change _).bind fun _ _ => gives_pure ?_
    cases (listOption skip).isEmpty <;> simp [summary]

theorem gives_answerFindPattern (pattern : String) (glob backend : Option String) :
    Gives IsPrintable (answerFindPattern pattern glob backend) := by
  refine (gives_lift (Registry.returns_selectPattern _ _ _)).bind fun b _ =>
    gives_read.bind fun s _ => gives_theDisk.bind fun d _ => ?_
  have hrefs : ∀ refs : List Reference, (∀ r ∈ refs, r.preview.IsText) →
      IsPrintable (.arr (refs.map Reference.toJson)) := fun refs h =>
    isPrintable_arr_iff.2 (List.forall_mem_map.2 fun r hr =>
      Reference.isPrintable_toJson (h r hr))
  split
  · exact (gives_search (Search.gives_findStructure d _ pattern glob)).bind fun refs h =>
      gives_pure (hrefs refs h)
  · exact (gives_search (Search.gives_findText d _ pattern glob)).bind fun refs h =>
      gives_pure (hrefs refs h)

theorem gives_answerReplacePattern (pattern replacement : String)
    (glob backend output : Option String) :
    Gives IsPrintable (answerReplacePattern pattern replacement glob backend output) := by
  refine (gives_lift (Registry.returns_selectPattern _ _ _)).bind fun b _ =>
    gives_read.bind fun s _ => gives_theDisk.bind fun d _ => ?_
  split
  · refine (gives_search (Search.gives_replaceStructure d _ _ pattern replacement glob)).bind
      fun e _ => (gives_outputPath _ _).bind fun p _ => (gives_change _).bind fun _ _ =>
        gives_pure ?_
    simp [summary]
  · refine (gives_search (Search.gives_replaceText d _ _ pattern replacement glob)).bind
      fun e _ => (gives_outputPath _ _).bind fun p _ => (gives_change _).bind fun _ _ =>
        gives_pure ?_
    simp [summary]

theorem gives_answerSelect (file : String) (include_ exclude output : Option String) :
    Gives IsPrintable (answerSelect file include_ exclude output) := by
  refine gives_theDisk.bind fun d _ => (gives_lift (Editset.returns_load d _)).bind fun e _ => ?_
  dsimp only
  refine (gives_change _).bind fun _ _ => gives_pure ?_
  simp

theorem gives_answerVerify (file : String) : Gives IsPrintable (answerVerify file) :=
  gives_theDisk.bind fun d _ => (gives_lift (Editset.returns_load d _)).bind fun _ _ =>
    gives_read.bind fun _ _ => gives_pure (VerifyReport.isPrintable_toJson _)

theorem gives_answerApply (file : String) (dryRun : Bool) :
    Gives IsPrintable (answerApply file dryRun) :=
  gives_theDisk.bind fun d _ => (gives_lift (Editset.returns_load d _)).bind fun _ _ =>
    gives_read.bind fun _ _ => (gives_modify _).bind fun _ _ =>
      gives_pure (ApplyReport.isPrintable_toJson _)

/-- The renames that are found have texts as their identities. -/
theorem isText_of_mem_find {r : FileRename.Request} {d : Disk} {root : Path} {ops : List FileOp}
    (h : FileRename.find r d root = .ok ops) : ∀ op ∈ ops, op.opId.IsText := by
  intro op hop
  obtain ⟨path, -, hpath⟩ := exists_of_mem_mapM h hop
  obtain ⟨content, -, hpath⟩ := bind_eq_ok.1 hpath
  rw [← Except.ok.inj hpath]
  exact ⟨_, rfl⟩

theorem isPrintable_pathPairs (ops : List FileOp) : (pathPairs ops).IsPrintable := by
  simp [pathPairs]

theorem gives_fileRequest (pattern replacement : String) (glob : Option String) :
    Gives (fun _ => True) (fileRequest pattern replacement glob) :=
  gives_read.bind fun _ _ => gives_pure trivial

theorem gives_answerFindFiles (pattern replacement : String) (glob : Option String) :
    Gives IsPrintable (answerFindFiles pattern replacement glob) := by
  refine (gives_fileRequest pattern replacement glob).bind fun r _ =>
    gives_theDisk.bind fun d _ => gives_read.bind fun s _ =>
      (gives_lift (returns_onDisk fun _ _ => trivial)).bind fun ops (_ : True) => gives_pure ?_
  simp [isPrintable_pathPairs]

theorem gives_answerRenameFiles (pattern replacement : String) (glob output : Option String)
    (onlyCheck : Bool) :
    Gives IsPrintable (answerRenameFiles pattern replacement glob output onlyCheck) := by
  refine gives_read.bind fun s _ => gives_theDisk.bind fun d _ =>
    (gives_fileRequest pattern replacement glob).bind fun r _ =>
      (gives_lift (returns_onDisk fun _ => isText_of_mem_find)).bind fun ops hops => ?_
  split
  · refine gives_pure ?_
    simp
  · split
    · exact gives_pure (FileRename.Report.isPrintable_toJson fun op hop =>
        hops op (List.mem_filter.1 hop).1)
    · refine (gives_lift (returns_onDisk fun _ _ => trivial)).bind fun e (_ : True) =>
        (gives_outputPath _ _).bind fun p _ => (gives_change _).bind fun _ _ => gives_pure ?_
      simp [isPrintable_pathPairs]

theorem gives_answerVerifyFiles (file : String) : Gives IsPrintable (answerVerifyFiles file) := by
  refine gives_theDisk.bind fun d _ => (gives_lift (FileEditset.returns_load d _)).bind fun e _ =>
    gives_read.bind fun s _ => gives_pure ?_
  simp [FileEditset.verifyReport]

theorem gives_answerApplyFiles (file : String) (dryRun : Bool) :
    Gives IsPrintable (answerApplyFiles file dryRun) :=
  gives_theDisk.bind fun d _ => (gives_lift (FileEditset.returns_load d _)).bind fun _ _ =>
    gives_read.bind fun _ _ => (gives_modify _).bind fun _ _ =>
      gives_pure (FileApplyReport.isPrintable_toJson _)

/-- Every request is answered by a document that can be printed, or stopped by trouble whose report
can be. -/
theorem gives_answer (r : Request) : Gives IsPrintable r.answer := by
  cases r with
  | symbolAt file line column => exact gives_answerSymbolAt file line column
  | references key => exact gives_answerReferences key
  | findSymbols pattern => exact gives_answerFindSymbols pattern
  | rename key new output => exact gives_answerRename key new output
  | renameBatch pattern replacement output skip onlyCheck =>
      exact gives_answerRenameBatch pattern replacement output skip onlyCheck
  | findPattern pattern glob backend => exact gives_answerFindPattern pattern glob backend
  | replacePattern pattern replacement glob backend output =>
      exact gives_answerReplacePattern pattern replacement glob backend output
  | select file include_ exclude output => exact gives_answerSelect file include_ exclude output
  | verify file => exact gives_answerVerify file
  | apply file dryRun => exact gives_answerApply file dryRun
  | findFiles pattern replacement glob => exact gives_answerFindFiles pattern replacement glob
  | renameFiles pattern replacement glob output onlyCheck =>
      exact gives_answerRenameFiles pattern replacement glob output onlyCheck
  | verifyFiles file => exact gives_answerVerifyFiles file
  | applyFiles file dryRun => exact gives_answerApplyFiles file dryRun
  | listBackends =>
      refine gives_pure (isPrintable_arr_iff.2 (List.forall_mem_map.2 fun b _ => ?_))
      exact b.isPrintable_describe

end Command

end Redline
