import WorkflowCanvas.Proofs.Search.Reach

/-! Whether a walk closes a cycle. Main statements: a place that the search gives lies on a cycle,
and when it gives none, no place lies on one. -/
namespace WorkflowCanvas.Search
open Relation
set_option autoImplicit false

variable {α : Type} {next : α → List α}

/-! ## Finished places -/

/-- A place lies on a cycle. -/
def OnCycle (next : α → List α) (a : α) : Prop := TransGen (Leads next) a a

/-- Each place of a list leads only to places further down. -/
def Downward (next : α → List α) : List α → Prop
  | [] => True
  | a :: rest => (∀ b ∈ next a, b ∈ rest) ∧ Downward next rest

theorem Downward.closed {places : List α} (h : Downward next places) : Closed next places := by
  induction places with
  | nil => simp [Closed]
  | cons a rest ih =>
    intro c hmem b hb
    rcases List.mem_cons.1 hmem with rfl | hmem
    · exact List.mem_cons_of_mem _ (h.1 b hb)
    · exact List.mem_cons_of_mem _ (ih h.2 c hmem b hb)

theorem Downward.not_onCycle {places : List α} (h : Downward next places) :
    ∀ a ∈ places, ¬ OnCycle next a := by
  induction places with
  | nil => simp
  | cons a rest ih =>
    intro c hmem hcycle
    have hrest : c ∈ rest := by
      rcases List.mem_cons.1 hmem with rfl | hmem
      · obtain ⟨b, hb, hp⟩ := TransGen.head'_iff.1 hcycle
        exact h.2.closed.mem_of_path hp (h.1 b hb)
      · exact hmem
    exact ih h.2 c hrest hcycle

/-! ## The current path -/

/-- What holds of the visits below some places: every place leads to the one above it, and its
successors are still to be tried, finished, or above it. -/
def Trail (next : α → List α) (finished : List α) : List α → List (Visit α) → Prop
  | _, [] => True
  | above, (a, others) :: rest =>
    (∀ b ∈ above, b ∈ next a) ∧ (∀ b ∈ others, b ∈ next a) ∧
      (∀ b ∈ next a, b ∈ others ∨ b ∈ finished ∨ b ∈ above) ∧ Trail next finished [a] rest

theorem Trail.mono {finished more above : List α} {visits : List (Visit α)}
    (hm : ∀ b ∈ finished, b ∈ more) (h : Trail next finished above visits) :
    Trail next more above visits := by
  induction visits generalizing above with
  | nil => trivial
  | cons visit rest ih =>
    obtain ⟨a, others⟩ := visit
    obtain ⟨habove, hothers, hall, hrest⟩ := h
    refine ⟨habove, hothers, fun b hb => ?_, ih hrest⟩
    rcases hall b hb with h | h | h
    · exact .inl h
    · exact .inr (.inl (hm b h))
    · exact .inr (.inr h)

/-- The place above is finished, and nothing is above any more. -/
theorem Trail.close {finished : List α} {a : α} {visits : List (Visit α)}
    (h : Trail next finished [a] visits) : Trail next (a :: finished) [] visits := by
  cases visits with
  | nil => trivial
  | cons visit rest =>
    obtain ⟨c, others⟩ := visit
    obtain ⟨habove, hothers, hall, hrest⟩ := h
    refine ⟨by simp, hothers, fun b hb => ?_, hrest.mono fun b hb => List.mem_cons_of_mem _ hb⟩
    rcases hall b hb with h | h | h
    · exact .inl h
    · exact .inr (.inl (List.mem_cons_of_mem _ h))
    · rw [List.mem_singleton.1 h]
      exact .inr (.inl List.mem_cons_self)

/-- The places of a trail lead to whatever is above them. -/
theorem Trail.path_to_above {finished : List α} {a : α} {visits : List (Visit α)}
    (h : Trail next finished [a] visits) : ∀ c ∈ path visits, ReflTransGen (Leads next) c a := by
  induction visits generalizing a with
  | nil => simp [path]
  | cons visit rest ih =>
    obtain ⟨d, others⟩ := visit
    obtain ⟨habove, -, -, hrest⟩ := h
    have hda : Leads next d a := habove a (by simp)
    intro c hc
    rcases List.mem_cons.1 hc with rfl | hc
    · exact .single hda
    · exact (ih hrest c hc).tail hda

theorem trail_root (finished : List α) (root : α) :
    Trail next finished [] [(root, next root)] :=
  ⟨by simp, fun _ hb => hb, fun _ hb => .inl hb, trivial⟩

/-- The next successor becomes the place at hand. -/
theorem Trail.push {finished others : List α} {a b : α} {visits : List (Visit α)}
    (h : Trail next finished [] ((a, b :: others) :: visits)) :
    Trail next finished [] ((b, next b) :: (a, others) :: visits) := by
  obtain ⟨-, hothers, hall, hrest⟩ := h
  refine ⟨by simp, fun c hc => hc, fun c hc => .inl hc, ?_, ?_, ?_, hrest⟩
  · intro c hc
    rw [List.mem_singleton.1 hc]
    exact hothers b List.mem_cons_self
  · exact fun c hc => hothers c (List.mem_cons_of_mem _ hc)
  · intro c hc
    rcases hall c hc with h | h | h
    · rcases List.mem_cons.1 h with rfl | h
      · exact .inr (.inr (by simp))
      · exact .inl h
    · exact .inr (.inl h)
    · cases h

/-- The next successor is finished already. -/
theorem Trail.skip {finished others : List α} {a b : α} {visits : List (Visit α)}
    (h : Trail next finished [] ((a, b :: others) :: visits)) (hb : b ∈ finished) :
    Trail next finished [] ((a, others) :: visits) := by
  obtain ⟨-, hothers, hall, hrest⟩ := h
  refine ⟨by simp, fun c hc => hothers c (List.mem_cons_of_mem _ hc), fun c hc => ?_, hrest⟩
  rcases hall c hc with h | h | h
  · rcases List.mem_cons.1 h with rfl | h
    · exact .inr (.inl hb)
    · exact .inl h
  · exact .inr (.inl h)
  · cases h

/-- Nothing is left to be tried: the place at hand leads only to finished places. -/
theorem Trail.finish {finished : List α} {a : α} {visits : List (Visit α)}
    (h : Trail next finished [] ((a, []) :: visits)) : ∀ b ∈ next a, b ∈ finished := by
  intro b hb
  rcases h.2.2.1 b hb with h | h | h
  · cases h
  · exact h
  · cases h

variable [DecidableEq α]

/-! ## The walk -/

/-- A successor that is neither on the path nor opened is finished, for it is a place. -/
theorem mem_finished_of_skip {places finished others : List α} {a b : α} {visits : List (Visit α)}
    (hc : Closed next places) (hp : ∀ c ∈ path ((a, b :: others) :: visits), c ∈ places)
    (ht : Trail next finished [] ((a, b :: others) :: visits))
    (hskip : ¬ (b ∈ places ∧ b ∉ finished)) : b ∈ finished := by
  have ha : a ∈ places := hp a List.mem_cons_self
  have hb : b ∈ places := hc a ha b (ht.2.1 b List.mem_cons_self)
  exact Decidable.byContradiction fun hn => hskip ⟨hb, hn⟩

theorem onCycle_of_walk {places finished : List α} {visits : List (Visit α)} {b : α}
    (hc : Closed next places) (hp : ∀ c ∈ path visits, c ∈ places)
    (ht : Trail next finished [] visits) (h : walk places next visits finished = .error b) :
    OnCycle next b := by
  fun_induction walk places next visits finished with
  | case1 finished => cases h
  | case2 finished a rest ih =>
    exact ih (fun c hm => hp c (List.mem_cons_of_mem _ hm)) ht.2.2.2.close h
  | case3 finished a c others rest hpath =>
    cases h
    have hab : Leads next a b := ht.2.1 b List.mem_cons_self
    rcases List.mem_cons.1 hpath with heq | hmem
    · rw [show b = a from heq] at hab ⊢
      exact .single hab
    · exact .tail' (ht.2.2.2.path_to_above b hmem) hab
  | case4 finished a c others rest hpath hopen ih =>
    refine ih (fun d hd => ?_) ht.push h
    rcases List.mem_cons.1 hd with rfl | hd
    · exact hopen.1
    · exact hp d hd
  | case5 finished a c others rest hpath hskip ih =>
    exact ih hp (ht.skip (mem_finished_of_skip hc hp ht hskip)) h

theorem downward_of_walk {places finished all : List α} {visits : List (Visit α)}
    (hc : Closed next places) (hp : ∀ c ∈ path visits, c ∈ places)
    (ht : Trail next finished [] visits) (hd : Downward next finished)
    (h : walk places next visits finished = .ok all) :
    Downward next all ∧ (∀ a ∈ finished, a ∈ all) ∧ ∀ a ∈ path visits, a ∈ all := by
  fun_induction walk places next visits finished with
  | case1 finished =>
    cases h
    exact ⟨hd, fun a ha => ha, by simp [path]⟩
  | case2 finished a rest ih =>
    obtain ⟨hdown, hold, hpath⟩ := ih (fun c hm => hp c (List.mem_cons_of_mem _ hm))
      ht.2.2.2.close ⟨ht.finish, hd⟩ h
    refine ⟨hdown, fun b hb => hold b (List.mem_cons_of_mem _ hb), fun b hb => ?_⟩
    rcases List.mem_cons.1 hb with rfl | hb
    · exact hold _ List.mem_cons_self
    · exact hpath b hb
  | case3 finished a c others rest hpath => cases h
  | case4 finished a c others rest hpath hopen ih =>
    have hp' : ∀ d ∈ path ((c, next c) :: (a, others) :: rest), d ∈ places := by
      intro d hd
      rcases List.mem_cons.1 hd with rfl | hd
      · exact hopen.1
      · exact hp d hd
    obtain ⟨hdown, hold, hall⟩ := ih hp' ht.push hd h
    exact ⟨hdown, hold, fun b hb => hall b (List.mem_cons_of_mem _ hb)⟩
  | case5 finished a c others rest hpath hskip ih =>
    exact ih hp (ht.skip (mem_finished_of_skip hc hp ht hskip)) hd h

/-! ## The search -/

theorem onCycle_of_closing? {places roots finished : List α} {a : α} (hc : Closed next places)
    (hr : ∀ b ∈ roots, b ∈ places) (hd : Downward next finished)
    (h : closing? places next roots finished = some a) : OnCycle next a := by
  induction roots generalizing finished with
  | nil => cases h
  | cons root roots ih =>
    have hr' : ∀ b ∈ roots, b ∈ places := fun b hb => hr b (List.mem_cons_of_mem _ hb)
    have hroot : ∀ c ∈ path [(root, next root)], c ∈ places := by
      simpa [path] using hr root List.mem_cons_self
    rw [closing?] at h
    split at h
    · exact ih hr' hd h
    · split at h
      · rename_i hw
        cases h
        exact onCycle_of_walk hc hroot (trail_root finished root) hw
      · rename_i hw
        exact ih hr' (downward_of_walk hc hroot (trail_root finished root) hd hw).1 h

theorem downward_of_closing? {places roots finished : List α} (hc : Closed next places)
    (hr : ∀ b ∈ roots, b ∈ places) (hd : Downward next finished)
    (h : closing? places next roots finished = none) :
    ∃ all, Downward next all ∧ (∀ a ∈ finished, a ∈ all) ∧ ∀ a ∈ roots, a ∈ all := by
  induction roots generalizing finished with
  | nil => exact ⟨finished, hd, fun a ha => ha, by simp⟩
  | cons root roots ih =>
    have hr' : ∀ b ∈ roots, b ∈ places := fun b hb => hr b (List.mem_cons_of_mem _ hb)
    have hroot : ∀ c ∈ path [(root, next root)], c ∈ places := by
      simpa [path] using hr root List.mem_cons_self
    rw [closing?] at h
    split at h
    · rename_i hmem
      obtain ⟨all, hdown, hold, hroots⟩ := ih hr' hd h
      refine ⟨all, hdown, hold, fun a ha => ?_⟩
      rcases List.mem_cons.1 ha with rfl | ha
      · exact hold a hmem
      · exact hroots a ha
    · split at h
      · cases h
      · rename_i hw
        obtain ⟨hdown, hold, hpath⟩ := downward_of_walk hc hroot (trail_root finished root) hd hw
        obtain ⟨all, hdown', hold', hroots⟩ := ih hr' hdown h
        refine ⟨all, hdown', fun a ha => hold' a (hold a ha), fun a ha => ?_⟩
        rcases List.mem_cons.1 ha with rfl | ha
        · exact hold' a (hpath a (by simp [path]))
        · exact hroots a ha

theorem closing?_eq_none_iff {places : List α} (hc : Closed next places)
    (hn : ∀ a b, b ∈ next a → a ∈ places) :
    closing? places next places [] = none ↔ ∀ a, ¬ OnCycle next a := by
  have hd : Downward next ([] : List α) := trivial
  constructor
  · intro h a hcycle
    obtain ⟨all, hdown, -, hroots⟩ := downward_of_closing? hc (fun b hb => hb) hd h
    obtain ⟨b, hb, -⟩ := TransGen.head'_iff.1 hcycle
    exact hdown.not_onCycle a (hroots a (hn a b hb)) hcycle
  · intro h
    cases hs : closing? places next places [] with
    | none => rfl
    | some a => exact absurd (onCycle_of_closing? hc (fun b hb => hb) hd hs) (h a)

end WorkflowCanvas.Search
