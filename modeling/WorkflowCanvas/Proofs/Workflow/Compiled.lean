import Mathlib.Data.List.Forall2
import WorkflowCanvas.Proofs.Decode.Written
import WorkflowCanvas.Proofs.Workflow.Line
import WorkflowCanvas.Workflow.Compile

/-! Which graphs compile, and to what. Main statements: the walk over a line meets the start and
then every step group in order; a graph compiles exactly when it is a line, to one step for each
step group in that order, with its title, mode, purpose and agents; and any other graph is refused
for its structure or for its agents. -/
namespace WorkflowCanvas
set_option autoImplicit false

/-! ## Steps of step groups -/

namespace Payload
variable {p : Payload} {s : Step}

/-- What a payload becomes: a step group the step of its title, mode, purpose and agents, and any
other payload nothing. -/
inductive Becomes : Payload → Step → Prop
  | stepGroup (d : StepGroup) : Becomes (.stepGroup d)
      { title := d.title, mode := d.mode, purpose := d.purpose, agents := d.agents }

theorem becomes_iff : p.Becomes s ↔ p.stepGroup?.map Step.ofGroup = some s := by
  constructor
  · rintro ⟨d⟩
    rfl
  · intro h
    cases p with
    | stepGroup d =>
      cases h
      exact .stepGroup d
    | _ => cases h

theorem rightUnique_becomes : Relator.RightUnique Becomes := by
  rintro _ _ _ ⟨d⟩ ⟨_⟩
  rfl

end Payload

theorem Node.exists_becomes_iff {n : Node} :
    (∃ s, n.payload.Becomes s) ↔ n.kind = .stepGroup := by
  cases hp : n.payload <;>
    simp [Payload.becomes_iff, Node.kind, Payload.kind, Payload.stepGroup?, hp]

namespace Graph
variable {g : Graph} {start finish : Node} {groups : List Node}

/-! ## The walk -/

theorem successor?_eq (hu : g.Unbranched) {a : String} {m : Node} (hm : m ∈ g.nodes)
    (hj : g.Joins a m.id) : g.successor? a = some m := by
  obtain ⟨e, he, hs, ht⟩ := hj
  have hmem : e ∈ g.outgoing a := by simp [outgoing_eq, he, hs]
  rw [successor?]
  cases ho : g.outgoing a with
  | nil =>
    rw [ho] at hmem
    cases hmem
  | cons f rest =>
    have hf : f ∈ g.outgoing a := ho ▸ List.mem_cons_self
    rw [outgoing_eq, List.mem_filter, beq_iff_eq] at hf
    have hfe : f = e := hu f hf.1 e he (.inl (hf.2.trans hs.symm))
    rw [hfe]
    exact node?_eq_some_iff.2 ⟨hm, ht.symm⟩

/-- Each node of the body is met once, and the walk stops at the end. The induction is on the
body; what was visited before lies outside it. -/
theorem chainFrom_eq {body : List Node} {visited : List String} (hf : finish.kind = .finish)
    (hk : ∀ n ∈ body, n.kind ≠ .finish) (hm : ∀ n ∈ body, n ∈ g.nodes)
    (hc : (body ++ [finish]).IsChain fun a b => g.successor? a.id = some b)
    (hn : (body.map Node.id).Nodup) (hv : ∀ n ∈ body, n.id ∉ visited) :
    g.chainFrom visited (body ++ [finish]).head? = body := by
  induction body generalizing visited with
  | nil =>
    rw [List.nil_append, List.head?_cons, chainFrom]
    simp [hf]
  | cons n rest ih =>
    rw [List.map_cons, List.nodup_cons] at hn
    rw [List.cons_append, List.isChain_cons] at hc
    have hnext : g.successor? n.id = (rest ++ [finish]).head? := by
      cases hh : (rest ++ [finish]).head? with
      | none => simp at hh
      | some m => exact hc.1 m hh
    have hopen : n.kind ≠ .finish ∧ n.id ∈ g.nodeIds ∧ n.id ∉ visited :=
      ⟨hk n List.mem_cons_self, id_mem_nodeIds (hm n List.mem_cons_self),
        hv n List.mem_cons_self⟩
    rw [List.cons_append, List.head?_cons, chainFrom, if_pos hopen, hnext]
    congr 1
    refine ih (fun m h => hk m (List.mem_cons_of_mem _ h))
      (fun m h => hm m (List.mem_cons_of_mem _ h)) hc.2 hn.2 fun m h => ?_
    rw [List.mem_cons, not_or]
    refine ⟨fun he => hn.1 (he ▸ List.mem_map_of_mem h), hv m (List.mem_cons_of_mem _ h)⟩

namespace Line

theorem isChain_successor (h : g.Line start groups finish) :
    (row start groups finish).IsChain fun a b => g.successor? a.id = some b := by
  have hc := List.isChain_map Node.id |>.1 h.isChain
  refine hc.imp_of_mem_imp fun a b _ hb hj => ?_
  exact successor?_eq h.unbranched (h.covers.mem_iff.2 hb) hj

theorem chainFrom_start (h : g.Line start groups finish) :
    g.chainFrom [] (some start) = start :: groups := by
  have hids := h.nodup_ids
  rw [row, ← List.cons_append, List.map_append, List.nodup_append] at hids
  refine chainFrom_eq h.finishes ?_ ?_ h.isChain_successor hids.1 (by simp)
  · intro n hn
    rcases List.mem_cons.1 hn with rfl | hn
    · simp [h.starts]
    · simp [h.steps n hn]
  · intro n hn
    rcases List.mem_cons.1 hn with rfl | hn
    · exact h.mem_nodes_iff.2 (.inl rfl)
    · exact h.mem_nodes_iff.2 (.inr (.inl hn))

theorem steps_eq (h : g.Line start groups finish) :
    g.steps = groups.filterMap fun n => n.payload.stepGroup?.map Step.ofGroup := by
  have hnone : start.payload.stepGroup?.map Step.ofGroup = none := by
    refine Option.eq_none_iff_forall_ne_some.2 fun s hs => ?_
    have hkind := Node.exists_becomes_iff.1 ⟨s, Payload.becomes_iff.2 hs⟩
    rw [h.starts] at hkind
    cases hkind
  rw [Graph.steps, h.sound.starts, List.head?_cons, h.chainFrom_start]
  exact List.filterMap_cons_none hnone

/-- The step groups of a line become its steps, one by one and in order. -/
theorem becomes_steps (h : g.Line start groups finish) :
    List.Forall₂ Payload.Becomes (groups.map Node.payload) g.steps := by
  have hsome : ∀ n ∈ groups, ∃ s, n.payload.Becomes s :=
    fun n hn => Node.exists_becomes_iff.2 (h.steps n hn)
  rw [h.steps_eq]
  clear h
  induction groups with
  | nil => exact .nil
  | cons n rest ih =>
    obtain ⟨s, hs⟩ := hsome n List.mem_cons_self
    simp only [List.filterMap_cons, Payload.becomes_iff.1 hs, List.map_cons]
    exact .cons hs (ih fun m hm => hsome m (List.mem_cons_of_mem _ hm))

theorem steps_eq_of_becomes (h : g.Line start groups finish) {steps : List Step}
    (hs : List.Forall₂ Payload.Becomes (groups.map Node.payload) steps) : g.steps = steps :=
  Payload.rightUnique_becomes.forall₂ h.becomes_steps hs

end Line

/-! ## The outcome -/

theorem isEmpty_structural : g.verdict.structural.isEmpty = g.violations.isEmpty := List.isEmpty_map

theorem isEmpty_unassigned : g.verdict.unassigned.isEmpty = g.looseAgents.isEmpty :=
  List.isEmpty_map

theorem isValid_iff_passes : g.verdict.isValid = true ↔ g.review.passes = true := by
  simp [Verdict.isValid, Verdict.errors, verdict, Verdict.ofReview, Review.passes]

theorem compile_of_violations (h : g.violations ≠ []) (m : Metadata) :
    g.compile m = .error (.structural g.review.errors) := by
  have hs : g.verdict.structural.isEmpty = false := by simpa [isEmpty_structural] using h
  have ho : g.obstacle? = some (.structural g.review.errors) := by
    rw [obstacle?, hs]
    rfl
  rw [compile, ho]

theorem compile_of_looseAgents (hv : g.violations = []) (ha : g.looseAgents ≠ [])
    (m : Metadata) :
    g.compile m =
      .error (.unassigned g.review.errors (g.looseAgents.map LooseAgent.node)) := by
  have hs : g.verdict.structural.isEmpty = true := by simp [isEmpty_structural, hv]
  have hu : g.verdict.unassigned.isEmpty = false := by simpa [isEmpty_unassigned] using ha
  have ho : g.obstacle? =
      some (.unassigned g.review.errors (g.looseAgents.map LooseAgent.node)) := by
    rw [obstacle?, hs, hu]
    rfl
  rw [compile, ho]

theorem compile_of_passes (h : g.review.passes = true) (m : Metadata) :
    g.compile m = .ok ⟨m, g.steps⟩ := by
  obtain ⟨hv, ha⟩ := passes_iff.1 h
  have ho : g.obstacle? = none := by
    rw [obstacle?, isEmpty_structural, isEmpty_unassigned, hv, ha]
    rfl
  rw [compile, ho]

theorem compile_of_not_passes (h : g.review.passes ≠ true) (m : Metadata) :
    ∃ violations, g.compile m = .error (.structural violations) ∨
      ∃ agents, g.compile m = .error (.unassigned violations agents) := by
  refine ⟨g.review.errors, ?_⟩
  by_cases hv : g.violations = []
  · have ha : g.looseAgents ≠ [] := fun ha => h (passes_iff.2 ⟨hv, ha⟩)
    exact .inr ⟨_, compile_of_looseAgents hv ha m⟩
  · exact .inl (compile_of_violations hv m)

theorem compile_eq_ok_iff {m : Metadata} {d : Definition} :
    g.compile m = .ok d ↔ g.review.passes = true ∧ d = ⟨m, g.steps⟩ := by
  by_cases hp : g.review.passes = true
  · simp [compile_of_passes hp, hp, eq_comm]
  · obtain ⟨violations, hs | ⟨agents, ha⟩⟩ := compile_of_not_passes hp m
    · simp [hs, hp]
    · simp [ha, hp]

theorem Line.compile_eq (h : g.Line start groups finish) (m : Metadata) :
    g.compile m = .ok ⟨m, g.steps⟩ :=
  compile_of_passes (passes_iff_line.2 ⟨start, groups, finish, h⟩) m

theorem compile_iff_line (g : Graph) (m : Metadata) :
    ((∃ d, g.compile m = .ok d) ↔ ∃ start groups finish, g.Line start groups finish) ∧
      (∀ start groups finish, g.Line start groups finish → ∃ steps,
        g.compile m = .ok ⟨m, steps⟩ ∧
          List.Forall₂ Payload.Becomes (groups.map Node.payload) steps ∧
          ∀ s ∈ steps, Step.ofFields (Form.inner.fields s.entries) = .accepted s) ∧
      ((¬ ∃ start groups finish, g.Line start groups finish) → ∃ violations,
        g.compile m = .error (.structural violations) ∨
          ∃ agents, g.compile m = .error (.unassigned violations agents)) := by
  refine ⟨⟨?_, ?_⟩, ?_, ?_⟩
  · rintro ⟨d, hd⟩
    by_cases hp : g.review.passes = true
    · exact passes_iff_line.1 hp
    · obtain ⟨violations, hs | ⟨agents, ha⟩⟩ := compile_of_not_passes hp m
      · rw [hs] at hd
        cases hd
      · rw [ha] at hd
        cases hd
  · rintro ⟨start, groups, finish, h⟩
    exact ⟨_, h.compile_eq m⟩
  · intro start groups finish h
    exact ⟨g.steps, h.compile_eq m, h.becomes_steps,
      fun s _ => Step.ofFields_fields .inner s⟩
  · intro h
    rw [← passes_iff_line] at h
    exact compile_of_not_passes h m

/-! ## A line that is listed out of order -/

def draftTitle : Title := ⟨"Draft", by decide, by decide⟩
def checkTitle : Title := ⟨"Check", by decide, by decide⟩

def draftPurpose : Purpose := ⟨"A first version", by decide⟩

/-- A purpose that is given and says nothing. -/
def emptyPurpose : Purpose := ⟨"", by decide⟩

def sampleStart : Node := ⟨"s", {}, .start ⟨"Start", none⟩, by decide⟩

def sampleDraft : Node :=
  ⟨"draft", {}, .stepGroup ⟨draftTitle, .sequential, some draftPurpose, ["writer", "editor"],
    ⟨"Draft", by decide⟩, none⟩, by decide⟩

def sampleCheck : Node :=
  ⟨"check", {}, .stepGroup ⟨checkTitle, .parallel, none, ["reviewer"], ⟨"Label", by decide⟩, none⟩,
    by decide⟩

def sampleFinish : Node := ⟨"e", {}, .finish ⟨"End", none⟩, by decide⟩

/-- A draft that is checked; the lists begin in the middle. -/
def sample : Graph where
  nodes := [sampleCheck, sampleFinish, sampleStart, sampleDraft]
  edges := [.plain "third" ⟨"check", none, "e", some "in"⟩ (by decide),
    .plain "first" ⟨"s", some "out", "draft", none⟩ (by decide),
    .plain "second" ⟨"draft", none, "check", none⟩ (by decide)]
  nodes_distinct := by decide
  edges_distinct := by decide
  anchored := by decide

def sampleMetadata : Metadata :=
  ⟨⟨"review", by decide, by decide, by decide⟩, Metadata.noPurpose, none, none⟩

theorem sample_line : sample.Line sampleStart [sampleDraft, sampleCheck] sampleFinish where
  starts := rfl
  steps := by simp [sampleDraft, sampleCheck, Node.kind, Payload.kind]
  finishes := rfl
  covers :=
    show ([sampleCheck, sampleFinish] ++ [sampleStart, sampleDraft]).Perm
      ([sampleStart, sampleDraft] ++ [sampleCheck, sampleFinish]) from List.perm_append_comm
  links := by decide

def sampleSteps : List Step :=
  [{ title := draftTitle, mode := .sequential, purpose := some draftPurpose,
     agents := ["writer", "editor"] },
    { title := checkTitle, mode := .parallel, purpose := none, agents := ["reviewer"] }]

theorem eq_sampleSteps {steps : List Step}
    (h : List.Forall₂ Payload.Becomes ([sampleDraft, sampleCheck].map Node.payload) steps) :
    steps = sampleSteps :=
  Payload.rightUnique_becomes.forall₂ h (.cons (.stepGroup _) (.cons (.stepGroup _) .nil))

theorem compile_sample :
    (sample.Line sampleStart [sampleDraft, sampleCheck] sampleFinish ∧
      sample.compile sampleMetadata = .ok ⟨sampleMetadata, sampleSteps⟩) ∧
      ∃ violations, empty.compile sampleMetadata = .error (.structural violations) ∨
        ∃ agents, empty.compile sampleMetadata = .error (.unassigned violations agents) := by
  have hempty : ¬ ∃ start groups finish, empty.Line start groups finish := by
    rintro ⟨start, groups, finish, h⟩
    have hm : start ∈ empty.nodes := h.mem_nodes_iff.2 (.inl rfl)
    cases hm
  obtain ⟨-, hline, -⟩ := compile_iff_line sample sampleMetadata
  obtain ⟨steps, hc, hs, -⟩ := hline _ _ _ sample_line
  rw [eq_sampleSteps hs] at hc
  exact ⟨⟨sample_line, hc⟩, (compile_iff_line empty sampleMetadata).2.2 hempty⟩

end Graph
end WorkflowCanvas
