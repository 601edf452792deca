import Mathlib.Data.List.Infix
import Redline.Search.Structure

/-!
# Which executable a structural search runs

The short name of the tool is also that of other programs, so a candidate counts only once the
machine finds it and the output of its version query shows the mark. `Settles` says which candidate
that is, question by question. Over any sequence of searches on one backend, a command other than a
version query runs the candidate that was settled on at an earlier question; where there is none,
nothing is searched and the tool is reported as missing.
-/

namespace Redline

theorem Record.isWithin_iff {part whole : List Char} :
    Record.isWithin part whole = true ↔ part <:+: whole := by
  induction whole with
  | nil => rw [isWithin, List.isEmpty_iff, List.infix_nil]
  | cons c rest ih =>
      rw [isWithin, Bool.or_eq_true, List.isPrefixOf_iff_prefix, ih, List.infix_cons_iff]

namespace Search

/-! ### What the machine says of candidates -/

/-- The command that asks an executable for its version. -/
def versionQuery (path : String) : List String :=
  [path, "--version"]

/-- The lookup of a candidate as question `n` succeeds. -/
def Host.Finds (host : Host) (n : Nat) (candidate path : String) : Prop :=
  host.locate n candidate = some path ∧ path ≠ ""

/-- The version query as question `n` can be started, and what it writes has the mark in it, in
letters of any case. -/
def Host.Shows (host : Host) (mark : String) (n : Nat) (path : String) : Prop :=
  ∃ x, host.execute n (versionQuery path) = some x ∧
    mark.toList <:+: (Text.toLower (Text.Utf8.decodeLossy (x.stdout ++ x.stderr))).toList

/-- Asked about candidates in turn from question `n` on, the machine settles on the first that it
finds and that shows the mark, or on none. The questions end before question `m`; the commands
among them are `queries`. -/
inductive Settles (host : Host) (mark : String) :
    Nat → List String → List (List String) → Option String → Nat → Prop
  | none (n : Nat) : Settles host mark n [] [] none n
  | absent {n m : Nat} {c : String} {rest : List String} {queries : List (List String)}
      {result : Option String} (habsent : ∀ path, ¬host.Finds n c path)
      (hrest : Settles host mark (n + 1) rest queries result m) :
      Settles host mark n (c :: rest) queries result m
  | other {n m : Nat} {c path : String} {rest : List String} {queries : List (List String)}
      {result : Option String} (hfinds : host.Finds n c path)
      (hother : ¬host.Shows mark (n + 1) path)
      (hrest : Settles host mark (n + 2) rest queries result m) :
      Settles host mark n (c :: rest) (versionQuery path :: queries) result m
  | shown {n : Nat} {c path : String} {rest : List String} (hfinds : host.Finds n c path)
      (hshows : host.Shows mark (n + 1) path) :
      Settles host mark n (c :: rest) [versionQuery path] (some c) (n + 2)

variable {host : Host} {mark : String} {candidates : List String} {queries : List (List String)}
  {result : Option String} {n m : Nat}

theorem Settles.le (h : Settles host mark n candidates queries result m) : n ≤ m := by
  induction h with
  | none => exact Nat.le_refl _
  | absent _ _ ih => omega
  | other _ _ _ ih => omega
  | shown => omega

/-- Only version queries are run to settle on a candidate. -/
theorem Settles.exists_path (h : Settles host mark n candidates queries result m) :
    ∀ q ∈ queries, ∃ path, q = versionQuery path := by
  induction h with
  | none => nofun
  | absent _ _ ih => exact ih
  | other _ _ _ ih => exact List.forall_mem_cons.2 ⟨⟨_, rfl⟩, ih⟩
  | shown => exact List.forall_mem_cons.2 ⟨⟨_, rfl⟩, nofun⟩

/-! ### Settling on a candidate -/

variable {s s' : Session} {path : String}

theorem get_eq : (get : Step Session) host s = (.ok s, s) := rfl

theorem locate_eq (c : String) : locate c host s =
    (.ok ((host.locate s.asked c).filter (!·.isEmpty)), { s with asked := s.asked + 1 }) := rfl

theorem execute_eq (command : List String) : execute command host s =
    (.ok (host.execute s.asked command),
      { s with asked := s.asked + 1, calls := s.calls ++ [command] }) := rfl

theorem locate_cases (host : Host) (n : Nat) (c : String) :
    ((host.locate n c).filter (!·.isEmpty) = none ∧ ∀ path, ¬host.Finds n c path) ∨
      ∃ path, (host.locate n c).filter (!·.isEmpty) = some path ∧ host.Finds n c path := by
  cases hlocate : host.locate n c with
  | none => exact .inl ⟨rfl, fun path h => by simp [Host.Finds, hlocate] at h⟩
  | some path =>
      by_cases hempty : path = ""
      · subst hempty
        exact .inl ⟨rfl, fun path h => by simp [Host.Finds, hlocate] at h⟩
      · exact .inr ⟨path, by simp [Option.filter, hempty], hlocate, hempty⟩

/-- A candidate is asked for its version, and is the tool if the mark is shown. -/
theorem identifies_eq (host : Host) (path : String) (hmark : s.tool.mark = some mark) : ∃ b,
    identifies path host s =
      (.ok b, { s with asked := s.asked + 1, calls := s.calls ++ [versionQuery path] }) ∧
      (b = true ↔ host.Shows mark s.asked path) := by
  rw [identifies, bind_of_ok get_eq, hmark]
  dsimp only
  rw [bind_of_ok (execute_eq _)]
  cases hexecute : host.execute s.asked [path, "--version"] with
  | none => exact ⟨false, rfl, by simp [Host.Shows, versionQuery, hexecute]⟩
  | some x => exact ⟨_, rfl, by simp [Host.Shows, versionQuery, hexecute, Record.isWithin_iff]⟩

/-- The first fitting candidate is the one that the machine settles on. -/
theorem firstFitting_settles (host : Host) (candidates : List String)
    (hmark : s.tool.mark = some mark) :
    ∃ queries result m, Settles host mark s.asked candidates queries result m ∧
      firstFitting candidates host s =
        (.ok result, { s with asked := m, calls := s.calls ++ queries }) := by
  induction candidates generalizing s with
  | nil => exact ⟨[], none, s.asked, .none _, by rw [List.append_nil]; rfl⟩
  | cons c rest ih =>
      rw [firstFitting, bind_of_ok (locate_eq c)]
      obtain ⟨hlocate, habsent⟩ | ⟨path, hlocate, hfinds⟩ := locate_cases host s.asked c
      · obtain ⟨queries, result, m, hsettles, hrest⟩ :=
          ih (s := { s with asked := s.asked + 1 }) hmark
        refine ⟨queries, result, m, .absent habsent hsettles, ?_⟩
        rw [hlocate]
        exact hrest
      · obtain ⟨b, hidentifies, hshows⟩ :=
          identifies_eq (s := { s with asked := s.asked + 1 }) host path hmark
        rw [hlocate]
        dsimp only
        rw [bind_of_ok hidentifies]
        cases b with
        | true =>
            exact ⟨_, some c, s.asked + 2, .shown hfinds (hshows.1 rfl), rfl⟩
        | false =>
            have hother : ¬host.Shows mark (s.asked + 1) path := fun h => by
              simpa using hshows.2 h
            obtain ⟨queries, result, m, hsettles, hrest⟩ :=
              ih (s := { s with asked := s.asked + 2, calls := s.calls ++ [versionQuery path] })
                hmark
            refine ⟨_, result, m, .other hfinds hother hsettles, ?_⟩
            rw [List.append_cons s.calls _ queries]
            exact hrest

/-! ### Running the tool -/

variable {c : String} {args : List String}

theorem resolve_of_resolved (host : Host) (h : s.tool.resolved = some c) :
    resolve host s = (.ok c, s) := by
  rw [resolve, bind_of_ok get_eq, h]
  rfl

/-- An executable that is not known yet is settled on, and kept; where there is none, the tool is
missing. -/
theorem resolve_settles (host : Host) (hmark : s.tool.mark = some mark)
    (hnone : s.tool.resolved = none) :
    ∃ queries m,
      (∃ c, Settles host mark s.asked (s.tool.executable :: s.tool.fallbacks) queries (some c) m ∧
        resolve host s = (.ok c,
          { tool := { s.tool with resolved := some c }, asked := m
            calls := s.calls ++ queries })) ∨
      (Settles host mark s.asked (s.tool.executable :: s.tool.fallbacks) queries none m ∧
        resolve host s =
          (.error (.failure (.toolMissing s.tool.name s.tool.executable s.tool.hint)),
            { s with asked := m, calls := s.calls ++ queries })) := by
  obtain ⟨queries, result, m, hsettles, hfirst⟩ :=
    firstFitting_settles host (s.tool.executable :: s.tool.fallbacks) hmark
  refine ⟨queries, m, ?_⟩
  rw [resolve, bind_of_ok get_eq, hnone]
  dsimp only
  rw [bind_of_ok hfirst]
  cases result with
  | some c => exact .inl ⟨c, hsettles, rfl⟩
  | none =>
      refine .inr ⟨hsettles, ?_⟩
      rw [hmark]
      rfl

/-- The session once a command was started. -/
def Session.started (s : Session) (command : List String) : Session :=
  { s with asked := s.asked + 1, calls := s.calls ++ [command] }

theorem run_of_resolve (args : List String) (h : resolve host s = (.ok c, s')) :
    (run args host s).2 = s'.started (c :: args) := by
  rw [run, bind_of_ok h, bind_of_ok (execute_eq _)]
  cases host.execute s'.asked (c :: args) <;> rfl

/-- The step leaves the session as it is. -/
def KeepsSession {α : Type} (g : Step α) : Prop :=
  ∀ host s, (g host s).2 = s

/-- All that the step does to the session is to run the tool; what stops the tool stops it. -/
def RunsTool {α : Type} (args : List String) (f : Step α) : Prop :=
  ∀ host s, (f host s).2 = (run args host s).2 ∧
    ∀ t, (run args host s).1 = .error t → (f host s).1 = .error t

theorem runsTool_run (args : List String) : RunsTool args (run args) :=
  fun _ _ => ⟨rfl, fun _ => id⟩

theorem RunsTool.bind {α β : Type} {f : Step α} {g : α → Step β} (h : RunsTool args f)
    (hg : ∀ y, KeepsSession (g y)) : RunsTool args (f >>= g) := by
  intro host s
  obtain ⟨hsession, herror⟩ := h host s
  rcases hf : f host s with ⟨o, s'⟩
  rw [hf] at hsession herror
  cases o with
  | ok y =>
      rw [bind_of_ok hf, hg y host s']
      exact ⟨hsession, fun t ht => nomatch herror t ht⟩
  | error t =>
      rw [bind_of_error hf]
      exact ⟨hsession, fun t' ht => congrArg Except.error (Except.error.inj (herror t' ht))⟩

theorem runsTool_searchStructure (d : Disk) (root : Path) (pattern : String)
    (glob : Option String) :
    RunsTool (structureArguments pattern glob) (searchStructure d root pattern glob) := by
  refine (runsTool_run _).bind fun x host s => ?_
  by_cases hnone : x.status = 1 ∧ isBlankText (Text.Utf8.decodeLossy x.stdout) ∧
      isBlankText (Text.Utf8.decodeLossy x.stderr)
  · rw [if_pos hnone]
    rfl
  by_cases hfailed : x.status ≠ 0 ∧
      (x.status ≠ 1 ∨ !isBlankText (Text.Utf8.decodeLossy x.stderr))
  · rw [if_neg hnone, if_pos hfailed]
    rfl
  · rw [if_neg hnone, if_neg hfailed]
    cases structureMatches d root (Text.Utf8.decodeLossy x.stdout) <;> rfl

/-! ### Searching on one backend -/

/-- What a backend for structural searches is used for. -/
inductive Use where
  | find (pattern : String) (glob : Option String)
  | replace (pattern replacement : String) (glob : Option String) (now : Moment)

namespace Use

/-- The arguments of the search. -/
def arguments : Use → List String
  | find pattern glob => structureArguments pattern glob
  | replace pattern _ glob _ => structureArguments pattern glob

/-- The references that are found, or the proposal. -/
def answer (d : Disk) (root : Path) : Use → Step (List Reference ⊕ Editset)
  | find pattern glob => Sum.inl <$> findStructure d root pattern glob
  | replace pattern replacement glob now =>
    Sum.inr <$> replaceStructure d root now pattern replacement glob

theorem runsTool_answer (d : Disk) (root : Path) (u : Use) :
    RunsTool u.arguments (u.answer d root) := by
  cases u with
  | find pattern glob =>
      exact ((runsTool_searchStructure d root pattern glob).bind fun _ _ _ => rfl).bind
        fun _ _ _ => rfl
  | replace pattern replacement glob now =>
      exact ((runsTool_searchStructure d root pattern glob).bind fun _ _ _ => rfl).bind
        fun _ _ _ => rfl

end Use

/-- The candidates for the executable of the structural search, the configured one first. -/
def candidatesOf (executable : String) : List String :=
  executable :: (astGrep executable).fallbacks

/-- The session of a new backend with a configured executable. -/
def Session.new (executable : String) : Session :=
  { tool := astGrep executable, asked := 0, calls := [] }

/-- The session of a backend that was used on disks as they were. -/
def sessionAfter (host : Host) (root : Path) (executable : String) (uses : List (Disk × Use)) :
    Session :=
  uses.foldl (fun s u => (u.2.answer u.1 root host s).2) (Session.new executable)

/-- Before question `m` the machine settled on the candidate; the version queries for that are
among the commands. -/
def Identified (host : Host) (executable : String) (m : Nat) (calls : List (List String))
    (c : String) : Prop :=
  ∃ n k queries front back, k ≤ m ∧
    Settles host "ast-grep" n (candidatesOf executable) queries (some c) k ∧
    calls = front ++ queries ++ back

/-- Each command is a version query, or it runs a candidate that was identified by the commands
before it. -/
def Vouched (host : Host) (executable : String) (m : Nat) (calls : List (List String)) : Prop :=
  ∀ before command after, calls = before ++ command :: after →
    (∃ path, command = versionQuery path) ∨
      ∃ c args, command = c :: args ∧ Identified host executable m before c

/-- How a use of a backend may go. -/
inductive Turn {α : Type} (host : Host) (executable : String) (args : List String) (s : Session) :
    Except Trouble α × Session → Prop
  /-- The executable is known, and is run at once. -/
  | known {c : String} (o : Except Trouble α) (hresolved : s.tool.resolved = some c)
      (hidentified : Identified host executable s.asked s.calls c) :
      Turn host executable args s (o, s.started (c :: args))
  /-- The machine settles on a candidate, which is kept and run. -/
  | settled {c : String} {queries : List (List String)} {m : Nat} (o : Except Trouble α)
      (hnone : s.tool.resolved = none)
      (hsettles : Settles host "ast-grep" s.asked (candidatesOf executable) queries (some c) m) :
      Turn host executable args s
        (o, Session.started
          { tool := { s.tool with resolved := some c }, asked := m, calls := s.calls ++ queries }
          (c :: args))
  /-- No candidate qualifies. Nothing is searched, nothing is kept, and the tool is missing. -/
  | missing {queries : List (List String)} {m : Nat} {f : Failure}
      (hnone : s.tool.resolved = none)
      (hsettles : Settles host "ast-grep" s.asked (candidatesOf executable) queries none m)
      (hkind : f.kind = "TOOL_NOT_INSTALLED") :
      Turn host executable args s
        (.error (.failure f), { s with asked := m, calls := s.calls ++ queries })

variable {executable : String} {calls more : List (List String)}

theorem Identified.mono {m m' : Nat} (h : Identified host executable m calls c) (hm : m ≤ m')
    (more : List (List String)) : Identified host executable m' (calls ++ more) c := by
  obtain ⟨n, k, queries, front, back, hk, hsettles, rfl⟩ := h
  exact ⟨n, k, queries, front, back ++ more, Nat.le_trans hk hm, hsettles,
    by rw [List.append_assoc]⟩

theorem Vouched.mono {m m' : Nat} (h : Vouched host executable m calls) (hm : m ≤ m') :
    Vouched host executable m' calls := by
  intro before command after heq
  obtain hquery | ⟨c, args, hcommand, hidentified⟩ := h before command after heq
  · exact .inl hquery
  · refine .inr ⟨c, args, hcommand, ?_⟩
    simpa using hidentified.mono hm []

/-- One more command. -/
theorem Vouched.snoc {m : Nat} {command : List String} (h : Vouched host executable m calls)
    (hcommand : (∃ path, command = versionQuery path) ∨
      ∃ c args, command = c :: args ∧ Identified host executable m calls c) :
    Vouched host executable m (calls ++ [command]) := by
  intro before command' after heq
  rcases List.eq_nil_or_concat after with rfl | ⟨after, last, rfl⟩
  · obtain ⟨rfl, hlast⟩ := List.append_inj' heq rfl
    obtain rfl := (List.cons.inj hlast).1
    exact hcommand
  · rw [List.concat_eq_append, ← List.cons_append, ← List.append_assoc] at heq
    exact h before command' after (List.append_inj' heq rfl).1

theorem Vouched.append {m : Nat} (h : Vouched host executable m calls)
    (hmore : ∀ q ∈ more, ∃ path, q = versionQuery path) :
    Vouched host executable m (calls ++ more) := by
  induction more using List.reverseRecOn with
  | nil => rwa [List.append_nil]
  | append_singleton more q ih =>
      rw [← List.append_assoc]
      exact (ih fun q hq => hmore q (by simp [hq])).snoc (.inl (hmore q (by simp)))

/-- What holds of a backend between its uses. -/
structure Session.Sound (host : Host) (executable : String) (s : Session) : Prop where
  tool : s.tool = { astGrep executable with resolved := s.tool.resolved }
  identified : ∀ c, s.tool.resolved = some c → Identified host executable s.asked s.calls c
  vouched : Vouched host executable s.asked s.calls

theorem sound_new (executable : String) : (Session.new executable).Sound host executable :=
  ⟨rfl, nofun, fun before command after h => by simp [Session.new] at h⟩

/-- A use in a sound session goes one of the ways. -/
theorem Session.Sound.turn (h : s.Sound host executable) (d : Disk) (root : Path) (u : Use) :
    Turn host executable u.arguments s (u.answer d root host s) := by
  obtain ⟨hsession, herror⟩ := u.runsTool_answer d root host s
  rcases hanswer : u.answer d root host s with ⟨o, s'⟩
  rw [hanswer] at hsession herror
  cases hresolved : s.tool.resolved with
  | some c =>
      have hrun := run_of_resolve u.arguments (resolve_of_resolved host hresolved)
      rw [hrun] at hsession
      obtain rfl : s' = _ := hsession
      exact .known o hresolved (h.identified c hresolved)
  | none =>
      have htool : s.tool = { astGrep executable with resolved := s.tool.resolved } := h.tool
      have hmark : s.tool.mark = some "ast-grep" := by rw [htool]; rfl
      have hcandidates : s.tool.executable :: s.tool.fallbacks = candidatesOf executable := by
        rw [htool]
        rfl
      obtain ⟨queries, m, ⟨c, hsettles, hresolve⟩ | ⟨hsettles, hresolve⟩⟩ :=
        resolve_settles host hmark hresolved
      · rw [run_of_resolve u.arguments hresolve] at hsession
        obtain rfl : s' = _ := hsession
        exact .settled o hresolved (hcandidates ▸ hsettles)
      · have hrun : run u.arguments host s = _ := bind_of_error hresolve
        rw [hrun] at hsession herror
        obtain rfl : s' = _ := hsession
        obtain rfl : o = _ := herror _ rfl
        exact .missing hresolved (hcandidates ▸ hsettles) rfl

/-- Every use leaves a sound session sound. -/
theorem Session.Sound.answer (h : s.Sound host executable) (d : Disk) (root : Path) (u : Use) :
    (u.answer d root host s).2.Sound host executable := by
  have hturn := h.turn d root u
  generalize u.answer d root host s = answered at hturn
  cases hturn with
  | @known c o hresolved hidentified =>
      refine ⟨h.tool, fun c' hc' => ?_, ?_⟩
      · exact (h.identified c' hc').mono (Nat.le_succ _) _
      · have hlast := hidentified.mono (Nat.le_succ _) []
        rw [List.append_nil] at hlast
        exact (h.vouched.mono (Nat.le_succ _)).snoc (.inr ⟨c, _, rfl, hlast⟩)
  | @settled c queries m o hnone hsettles =>
      have hidentified : Identified host executable (m + 1) (s.calls ++ queries) c :=
        ⟨s.asked, m, queries, s.calls, [], Nat.le_succ _, hsettles, by rw [List.append_nil]⟩
      have hle : s.asked ≤ m + 1 := Nat.le_succ_of_le hsettles.le
      refine ⟨?_, fun c' hc' => ?_, ?_⟩
      · rw [h.tool]
        rfl
      · obtain rfl := Option.some.inj hc'
        exact hidentified.mono (Nat.le_refl _) _
      · exact ((h.vouched.mono hle).append hsettles.exists_path).snoc
          (.inr ⟨c, _, rfl, hidentified⟩)
  | @missing queries m f hnone hsettles hkind =>
      refine ⟨h.tool, fun c hc => ?_, ?_⟩
      · exact nomatch hnone.symm.trans hc
      · exact (h.vouched.mono hsettles.le).append hsettles.exists_path

theorem sound_sessionAfter (host : Host) (root : Path) (executable : String)
    (uses : List (Disk × Use)) :
    (sessionAfter host root executable uses).Sound host executable := by
  induction uses using List.reverseRecOn with
  | nil => exact sound_new executable
  | append_singleton uses u ih =>
      rw [sessionAfter, List.foldl_append]
      exact ih.answer u.1 root u.2

/-- Only an identified executable is ever run. On any machine, whose answers may differ from one
question to the next, after any uses of a backend with any configured executable, each command that
was started is a version query or runs a candidate that the machine had settled on before. The next
use runs such a candidate, known or newly settled on, or it reports the tool as missing. -/
theorem only_identified_runs (host : Host) (root : Path) (executable : String)
    (uses : List (Disk × Use)) :
    Vouched host executable (sessionAfter host root executable uses).asked
        (sessionAfter host root executable uses).calls ∧
      ∀ d u, Turn host executable (Use.arguments u) (sessionAfter host root executable uses)
        (u.answer d root host (sessionAfter host root executable uses)) :=
  ⟨(sound_sessionAfter host root executable uses).vouched,
    fun d u => (sound_sessionAfter host root executable uses).turn d root u⟩

end Search

end Redline
