import Mathlib.Data.List.Induction
import Mathlib.Data.List.Sort
import Mathlib.Tactic.Common
import Redline.Backend.Registry
import Redline.Proofs.Distinct

/-!
# The order of registered backends

A registry that is kept between calls takes backends one after the other; a call that is refused
leaves it as it was. After any calls it has the first backend of each name, sorted by descending
priority, and a sort that keeps the order of equals. So the first backend that fits a file is the
one with the greatest priority, and the one registered first among those.
-/

namespace Redline

namespace Backend

/-- Whether a backend may stand before another. -/
def before (a b : Backend) : Bool :=
  decide (b.priority ≤ a.priority)

/-- The backend lists the ending of a path, or the sign for any ending. -/
def Lists (b : Backend) (path : String) : Prop :=
  "*" ∈ b.extensions ∨ extensionOf path ∈ b.extensions

variable {a b c : Backend}

theorem before_iff : a.before b = true ↔ b.priority ≤ a.priority :=
  decide_eq_true_iff

theorem before_trans (a b c : Backend) (hab : a.before b = true) (hbc : b.before c = true) :
    a.before c = true :=
  before_iff.2 ((before_iff.1 hbc).trans (before_iff.1 hab))

theorem before_total (a b : Backend) : (a.before b || b.before a) = true := by
  rw [Bool.or_eq_true, before_iff, before_iff]
  exact Int.le_total _ _

theorem handles_iff_lists {path : String} : b.handles (extensionOf path) = true ↔ b.Lists path := by
  rw [handles, Bool.or_eq_true, List.contains_iff_mem, List.contains_iff_mem, Lists]

end Backend

namespace Registry

open Backend

/-! ### Insertion sorts -/

variable {b : Backend}

/-- A backend that is sorted before others stands before the first one that may not stand before
it. -/
theorem mergeSort_cons (a : Backend) (l : List Backend) :
    (a :: l).mergeSort before = (l.mergeSort before).orderedInsert (fun x y => before x y) a := by
  obtain ⟨left, right, hcons, hrest, hleft⟩ := List.mergeSort_cons before_trans before_total a l
  have hsorted := List.pairwise_mergeSort before_trans before_total (a :: l)
  rw [hcons, List.pairwise_append, List.pairwise_cons] at hsorted
  rw [hcons, hrest, List.orderedInsert_eq_take_drop]
  have hpassed : ∀ x ∈ left, decide ¬before a x = true := by simpa using hleft
  rw [List.takeWhile_append_of_pos hpassed, List.dropWhile_append_of_pos hpassed]
  cases right with
  | nil => simp
  | cons x right =>
      have hx : before a x = true := hsorted.2.1.1 x List.mem_cons_self
      simp [hx]

/-- One backend is put before the first that may not stand before it, another behind the last that
may: the order in which this is done does not matter. -/
theorem insert_orderedInsert (a b : Backend) (l : List Backend) :
    insert b (l.orderedInsert (fun x y => before x y) a) =
      (insert b l).orderedInsert (fun x y => before x y) a := by
  induction l with
  | nil => grind [insert, before_iff]
  | cons c l ih => grind [insert, before_iff]

/-- Inserting a backend is sorting it in as the last of the list. -/
theorem insert_mergeSort (b : Backend) (l : List Backend) :
    insert b (l.mergeSort before) = (l ++ [b]).mergeSort before := by
  induction l with
  | nil => simp [insert]
  | cons a l ih => rw [List.cons_append, mergeSort_cons, mergeSort_cons, insert_orderedInsert, ih]

/-! ### Calls -/

/-- A call of a registry that is kept from one call to the next. -/
abbrev Call := ExceptT Trouble (StateM Registry)

/-- Registers a backend with the registry that is kept. -/
def enter (b : Backend) : Call Unit := do
  set (← liftM ((← get).register b))

/-- The registry after some backends were entered; one that was refused does not stop the rest. -/
def after (r : Registry) (bs : List Backend) : Registry :=
  bs.foldl (fun r b => ((enter b).run.run r).2) r

variable {r : Registry} {bs : List Backend}

theorem after_append_singleton (r : Registry) (bs : List Backend) (b : Backend) :
    r.after (bs ++ [b]) = ((enter b).run.run (r.after bs)).2 :=
  List.foldl_concat _ _ _ _

/-- A backend whose name is taken is refused, and the registry stays. -/
theorem run_enter_of_mem (h : b.name ∈ r.names) :
    (enter b).run.run r = (.error (.failure (.backendDuplicate b.name)), r) := by
  have htaken : (r.backends.any fun c => c.name == b.name) = true := by
    obtain ⟨c, hc, hname⟩ := List.mem_map.1 h
    exact List.any_eq_true.2 ⟨c, hc, beq_iff_eq.2 hname⟩
  have hregister : r.register b = .error (.failure (.backendDuplicate b.name)) := by
    rw [register, if_pos htaken]
    rfl
  show (do set (← liftM (r.register b)) : Call Unit).run.run r = _
  rw [hregister]
  rfl

/-- A backend with a new name is put in its place. -/
theorem run_enter_of_notMem (h : b.name ∉ r.names) :
    (enter b).run.run r = (.ok (), { backends := insert b r.backends }) := by
  have hnew : ¬(r.backends.any fun c => c.name == b.name) = true := by
    intro htaken
    obtain ⟨c, hc, hname⟩ := List.any_eq_true.1 htaken
    exact h (List.mem_map.2 ⟨c, hc, beq_iff_eq.1 hname⟩)
  have hregister : r.register b = .ok { backends := insert b r.backends } := by
    rw [register, if_neg hnew]
  show (do set (← liftM (r.register b)) : Call Unit).run.run r = _
  rw [hregister]
  rfl

theorem mem_names_of_backends_eq (h : r.backends = (distinctBy name bs).mergeSort before)
    {n : String} : n ∈ r.names ↔ n ∈ bs.map name := by
  rw [names, h, ((List.mergeSort_perm _ _).map name).mem_iff, mem_map_distinctBy]

/-- After any calls the registry has the first backend of each name, sorted. -/
theorem backends_after (bs : List Backend) :
    (empty.after bs).backends = (distinctBy name bs).mergeSort before := by
  induction bs using List.reverseRecOn with
  | nil => exact List.mergeSort_nil.symm
  | append_singleton bs b ih =>
      have hnames := mem_names_of_backends_eq ih (n := b.name)
      rw [after_append_singleton, distinctBy_append_singleton]
      by_cases hb : b.name ∈ bs.map name
      · rw [if_pos hb, run_enter_of_mem (hnames.2 hb), ih]
      · rw [if_neg hb, run_enter_of_notMem (mt hnames.1 hb), ← insert_mergeSort, ih]

/-! ### The backend for a file -/

/-- The first of some sorted backends that lists a path has the greatest priority of those that do,
and of those that share it the one that came first before they were sorted. -/
theorem exists_of_find?_mergeSort {l : List Backend} (hnodup : l.Nodup) {path : String}
    (h : (l.mergeSort before).find? (·.handles (extensionOf path)) = some b) :
    ∃ earlier later, l = earlier ++ b :: later ∧ b.Lists path ∧
      (∀ c ∈ earlier, c.Lists path → c.priority < b.priority) ∧
      ∀ c ∈ later, c.Lists path → c.priority ≤ b.priority := by
  obtain ⟨hb, left, right, hsplit, hleft⟩ := List.find?_eq_some_iff_append.1 h
  have hsorted := List.pairwise_mergeSort before_trans before_total l
  have hperm := List.mergeSort_perm l before
  have hnodup' : (left ++ b :: right).Nodup := by rwa [← hsplit, hperm.nodup_iff]
  rw [hsplit, List.pairwise_append, List.pairwise_cons] at hsorted
  have hnotLeft : ∀ c, c.Lists path → c ∉ left := fun c hc hmem => by
    simpa [handles_iff_lists.2 hc] using hleft c hmem
  have hmax : ∀ c ∈ l, c.Lists path → c.priority ≤ b.priority := by
    intro c hmem hc
    rw [← hperm.mem_iff, hsplit, List.mem_append, List.mem_cons] at hmem
    obtain hmem | rfl | hmem := hmem
    · exact absurd hmem (hnotLeft c hc)
    · exact Int.le_refl _
    · exact before_iff.1 (hsorted.2.1.1 c hmem)
  have hbl : b ∈ l := by
    rw [← hperm.mem_iff, hsplit]
    simp
  obtain ⟨earlier, later, rfl⟩ := List.append_of_mem hbl
  refine ⟨earlier, later, rfl, handles_iff_lists.1 hb, fun c hmem hc => ?_,
    fun c hmem hc => hmax c (by simp [hmem]) hc⟩
  refine lt_of_le_of_ne (hmax c (by simp [hmem]) hc) fun hsame => hnotLeft c hc ?_
  -- Sorting keeps `c` before `b`, so `c` is among those that `find?` passed.
  have hpair : [c, b].Sublist (earlier ++ b :: later) :=
    (List.singleton_sublist.2 hmem).append (List.singleton_sublist.2 List.mem_cons_self)
  have hkept := List.pair_sublist_mergeSort before_trans before_total
    (before_iff.2 (Int.le_of_eq hsame.symm)) hpair
  rw [hsplit, List.sublist_append_iff] at hkept
  obtain ⟨front, back, hpair, hfront, hback⟩ := hkept
  cases front with
  | cons x front =>
      obtain rfl : c = x := (List.cons.inj hpair).1
      exact hfront.subset List.mem_cons_self
  | nil =>
      obtain rfl : [c, b] = back := hpair
      have hright : b ∉ right := (List.nodup_cons.1 hnodup'.of_append_right).1
      cases hback with
      | cons _ hback => exact absurd (hback.subset (by simp)) hright
      | cons_cons _ hback => exact absurd (hback.subset (by simp)) hright

/-- A registry over any sequence of calls. Its names are those of the stable sort, by descending
priority, of the calls without those whose name came before. Such a call is refused as a duplicate
and leaves the registry as it was; every other one is accepted. A path gets, of the registered
backends that list it, the one with the greatest priority, the first registered among equals, and
none only if there is none. -/
theorem after_calls (bs : List Backend) :
    (empty.after bs).names = ((distinctBy name bs).mergeSort before).map name ∧
    (∀ earlier b later, bs = earlier ++ b :: later →
      (enter b).run.run (empty.after earlier) =
        if b.name ∈ earlier.map name then
          (.error (.failure (.backendDuplicate b.name)), empty.after earlier)
        else (.ok (), empty.after (earlier ++ [b]))) ∧
    ∀ path,
      ((empty.after bs).forFile? path = none → ∀ b ∈ distinctBy name bs, ¬b.Lists path) ∧
      ∀ b, (empty.after bs).forFile? path = some b →
        ∃ earlier later, distinctBy name bs = earlier ++ b :: later ∧ b.Lists path ∧
          (∀ c ∈ earlier, c.Lists path → c.priority < b.priority) ∧
          ∀ c ∈ later, c.Lists path → c.priority ≤ b.priority := by
  refine ⟨?_, ?_, fun path => ⟨?_, ?_⟩⟩
  · rw [names, backends_after]
  · rintro earlier b later -
    have hnames := mem_names_of_backends_eq (backends_after earlier) (n := b.name)
    split_ifs with hb
    · exact run_enter_of_mem (hnames.2 hb)
    · rw [after_append_singleton, run_enter_of_notMem (mt hnames.1 hb)]
  · intro hnone b hb hlists
    rw [forFile?, backends_after, List.find?_eq_none] at hnone
    exact hnone b (List.mem_mergeSort.2 hb) (handles_iff_lists.2 hlists)
  · intro b hb
    rw [forFile?, backends_after] at hb
    exact exists_of_find?_mergeSort (distinctBy_nodup name bs).of_map hb

/-- The backends of the program are registered in this order. -/
example : empty.after [treeSitter, astGrep, ripgrep, fileRename, ripgrep] = standard := by decide

end Registry

end Redline
