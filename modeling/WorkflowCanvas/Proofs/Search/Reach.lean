import Mathlib.Logic.Relation
import WorkflowCanvas.Graph.Search

/-! What a search reaches. Main statements: from a place, exactly the places at the end of a path
along the successor function are reached, whatever the order in which they are opened; and the
search is over within one turn for each place of the queue and each arc from a place not yet seen. -/
namespace WorkflowCanvas.Search
open Relation
set_option autoImplicit false

variable {α : Type} {next : α → List α}

/-- A place leads to its successors. -/
def Leads (next : α → List α) (a b : α) : Prop := b ∈ next a

/-- The successors of a place of a list are in the list. -/
def Closed (next : α → List α) (places : List α) : Prop := ∀ a ∈ places, ∀ b ∈ next a, b ∈ places

theorem Closed.of_subset {places more : List α} (h : ∀ a, next a ⊆ places) (hm : places ⊆ more) :
    Closed next more := fun a _ _ hb => hm (h a hb)

theorem Closed.mem_of_path {places : List α} (hc : Closed next places) {a b : α}
    (h : ReflTransGen (Leads next) a b) (ha : a ∈ places) : b ∈ places := by
  induction h with
  | refl => exact ha
  | tail _ hbc ih => exact hc _ ih _ hbc

variable [DecidableEq α]

/-! ## Soundness -/

theorem path_of_mem_reach {places queue seen : List α} {b : α}
    (hb : b ∈ reach places next queue seen) :
    b ∈ seen ∨ ∃ a ∈ queue, ReflTransGen (Leads next) a b := by
  fun_induction reach places next queue seen with
  | case1 seen => exact .inl hb
  | case2 seen a rest hopen ih =>
    rcases ih hb with hs | ⟨c, hc, hp⟩
    · rcases List.mem_cons.1 hs with rfl | hs
      · exact .inr ⟨b, List.mem_cons_self, .refl⟩
      · exact .inl hs
    · rcases List.mem_append.1 hc with hc | hc
      · exact .inr ⟨c, List.mem_cons_of_mem _ hc, hp⟩
      · exact .inr ⟨a, List.mem_cons_self, .head (List.mem_filter.1 hc).1 hp⟩
  | case3 seen a rest hskip ih =>
    rcases ih hb with hs | ⟨c, hc, hp⟩
    · exact .inl hs
    · exact .inr ⟨c, List.mem_cons_of_mem _ hc, hp⟩

/-! ## Completeness -/

theorem mem_places_of_opened {places rest seen : List α} {a : α}
    (hq : ∀ b ∈ a :: rest, b ∈ places) (hc : Closed next places) :
    ∀ b ∈ rest ++ (next a).filter fun b => decide (b ∉ a :: seen), b ∈ places := by
  intro b hb
  rcases List.mem_append.1 hb with hb | hb
  · exact hq b (List.mem_cons_of_mem _ hb)
  · exact hc a (hq a List.mem_cons_self) b (List.mem_filter.1 hb).1

theorem subset_reach {places queue seen : List α} (hq : ∀ a ∈ queue, a ∈ places)
    (hc : Closed next places) :
    (∀ a ∈ seen, a ∈ reach places next queue seen) ∧
      ∀ a ∈ queue, a ∈ reach places next queue seen := by
  fun_induction reach places next queue seen with
  | case1 seen => exact ⟨fun a ha => ha, by simp⟩
  | case2 seen a rest hopen ih =>
    obtain ⟨hseen, hqueue⟩ := ih (mem_places_of_opened hq hc)
    refine ⟨fun b hb => hseen b (List.mem_cons_of_mem _ hb), fun b hb => ?_⟩
    rcases List.mem_cons.1 hb with rfl | hb
    · exact hseen b List.mem_cons_self
    · exact hqueue b (List.mem_append_left _ hb)
  | case3 seen a rest hskip ih =>
    obtain ⟨hseen, hqueue⟩ := ih fun b hb => hq b (List.mem_cons_of_mem _ hb)
    refine ⟨hseen, fun b hb => ?_⟩
    rcases List.mem_cons.1 hb with rfl | hb
    · have hb' : b ∈ seen :=
        Decidable.byContradiction fun hn => hskip ⟨hq b List.mem_cons_self, hn⟩
      exact hseen b hb'
    · exact hqueue b hb

/-- The successors of seen places are seen or queued at every moment, and at the end nothing is
queued. -/
theorem closed_reach {places queue seen : List α} (hq : ∀ a ∈ queue, a ∈ places)
    (hc : Closed next places) (hs : ∀ a ∈ seen, ∀ b ∈ next a, b ∈ seen ∨ b ∈ queue) :
    Closed next (reach places next queue seen) := by
  fun_induction reach places next queue seen with
  | case1 seen =>
    intro a ha b hb
    simpa using hs a ha b hb
  | case2 seen a rest hopen ih =>
    apply ih
    · exact mem_places_of_opened hq hc
    · intro c hmem b hb
      rcases List.mem_cons.1 hmem with rfl | hmem
      · by_cases hnew : b ∈ c :: seen
        · exact .inl hnew
        · exact .inr (List.mem_append_right _ (List.mem_filter.2 ⟨hb, decide_eq_true hnew⟩))
      · rcases hs c hmem b hb with h | h
        · exact .inl (List.mem_cons_of_mem _ h)
        · rcases List.mem_cons.1 h with rfl | h
          · exact .inl List.mem_cons_self
          · exact .inr (List.mem_append_left _ h)
  | case3 seen a rest hskip ih =>
    have ha : a ∈ seen :=
      Decidable.byContradiction fun hn => hskip ⟨hq a List.mem_cons_self, hn⟩
    apply ih
    · exact fun b hb => hq b (List.mem_cons_of_mem _ hb)
    · intro c hmem b hb
      rcases hs c hmem b hb with h | h
      · exact .inl h
      · rcases List.mem_cons.1 h with rfl | h
        · exact .inl ha
        · exact .inr h

theorem mem_reach_iff {places : List α} {origin b : α} (ho : origin ∈ places)
    (hc : Closed next places) :
    b ∈ reach places next [origin] [] ↔ ReflTransGen (Leads next) origin b := by
  have hq : ∀ a ∈ [origin], a ∈ places := by simpa using ho
  constructor
  · intro hb
    rcases path_of_mem_reach hb with hs | ⟨a, ha, hp⟩
    · cases hs
    · rw [List.mem_singleton.1 ha] at hp
      exact hp
  · intro hp
    have horigin : origin ∈ reach places next [origin] [] :=
      (subset_reach hq hc).2 origin (by simp)
    exact (closed_reach hq hc (by simp)).mem_of_path hp horigin

/-! ## Turns of a search -/

/-- Searches on for a number of turns, each of which takes one place from the queue; nothing when
the queue is not empty by then. -/
def reachFor (next : α → List α) : Nat → List α → List α → Option (List α)
  | 0, _, _ => none
  | _ + 1, [], seen => some seen
  | turns + 1, a :: rest, seen =>
    if a ∈ seen then reachFor next turns rest seen
    else reachFor next turns (rest ++ (next a).filter fun b => decide (b ∉ a :: seen)) (a :: seen)

theorem unknown_cons (places : List α) {known : List α} {a : α} (h : a ∉ known) :
    unknown places (a :: known) + places.count a = unknown places known := by
  unfold unknown
  induction places with
  | nil => rfl
  | cons b rest ih =>
    rw [List.filter_cons, List.filter_cons, List.count_cons]
    by_cases hb : b = a
    · subst hb
      simp only [List.mem_cons_self, not_true, decide_false, Bool.false_eq_true, if_false, h,
        not_false_eq_true, decide_true, if_true, BEq.rfl, List.length_cons]
      omega
    · have hsame : b ∈ a :: known ↔ b ∈ known := by simp [hb]
      simp only [hsame, beq_false_of_ne hb, Bool.false_eq_true, if_false, Nat.add_zero]
      split
      · rw [List.length_cons, List.length_cons]
        omega
      · exact ih

/-- A place that is opened takes one from the queue and adds its successors to it, and these are
counted among the arcs of the places that are not yet seen. -/
theorem reachFor_eq {places queue seen : List α} (tails : List α) {turns : Nat}
    (hq : ∀ a ∈ queue, a ∈ places) (hc : Closed next places)
    (htails : ∀ a, (next a).length = tails.count a)
    (h : queue.length + unknown tails seen < turns) :
    reachFor next turns queue seen = some (reach places next queue seen) := by
  induction turns generalizing queue seen with
  | zero => omega
  | succ turns ih =>
    match queue with
    | [] => rw [reachFor, reach]
    | a :: rest =>
      rw [List.length_cons] at h
      rw [reachFor, reach]
      by_cases hseen : a ∈ seen
      · rw [if_pos hseen, if_neg fun hopen => hopen.2 hseen]
        exact ih (fun b hb => hq b (List.mem_cons_of_mem _ hb)) (by omega)
      · rw [if_neg hseen, if_pos ⟨hq a List.mem_cons_self, hseen⟩]
        apply ih (mem_places_of_opened hq hc)
        have hkept : ((next a).filter fun b => decide (b ∉ a :: seen)).length ≤ tails.count a :=
          htails a ▸ List.length_filter_le _ _
        have hopened := unknown_cons tails hseen
        rw [List.length_append]
        omega

theorem unknown_nil (places : List α) : unknown places [] = places.length := by
  simp [unknown]

end WorkflowCanvas.Search
