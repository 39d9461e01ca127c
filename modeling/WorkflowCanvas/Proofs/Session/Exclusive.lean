import WorkflowCanvas.Proofs.Session.Run
import WorkflowCanvas.Proofs.Workflow.Rebuilt

/-! Handles of one edge each. Main statements: removing edges, placing an edge on handles that are
free, and carrying out a gesture keep every handle at one edge; a rebuilt graph is so from the
outset; and a session whose graph is so, and that loads no other, keeps it so through any requests
in any order. -/
namespace WorkflowCanvas
set_option autoImplicit false

namespace Graph
variable {s : ConnectionSettings} {g h : Graph} {e : Edge}

/-! ## Exclusive handles -/

/-- No two edges leave one handle or enter one, the ends of every edge are nodes, and no edge leads
back to its own node unless that is allowed. -/
structure Exclusive (s : ConnectionSettings) (g : Graph) : Prop where
  sources : ∀ e ∈ g.edges, ∀ f ∈ g.edges, e.sourceKey = f.sourceKey → e = f
  targets : ∀ e ∈ g.edges, ∀ f ∈ g.edges, e.targetKey = f.targetKey → e = f
  anchored : ∀ e ∈ g.edges, e.source ∈ g.nodeIds ∧ e.target ∈ g.nodeIds
  loops : s.allowSelfLoops = false → ∀ e ∈ g.edges, e.source ≠ e.target

theorem exclusive_of_edges_nil (h : g.edges = []) : g.Exclusive s := by
  constructor <;> simp [h]

theorem Exclusive.of_subset (hg : g.Exclusive s) (he : h.edges ⊆ g.edges) : h.Exclusive s where
  sources := fun e hm f hf => hg.sources e (he hm) f (he hf)
  targets := fun e hm f hf => hg.targets e (he hm) f (he hf)
  anchored := h.anchored
  loops := fun hl e hm => hg.loops hl e (he hm)

/-- Edges that a key tells apart stay so when one more comes whose key no edge that stays has. -/
theorem separate_of_placed {κ : Type} {key : Edge → κ}
    (hg : ∀ a ∈ g.edges, ∀ b ∈ g.edges, key a = key b → a = b)
    (hm : ∀ f ∈ h.edges, f = e ∨ f ∈ g.edges ∧ key f ≠ key e) :
    ∀ a ∈ h.edges, ∀ b ∈ h.edges, key a = key b → a = b := by
  intro a ha b hb hkey
  rcases hm a ha with rfl | ⟨ha, hne⟩ <;> rcases hm b hb with rfl | ⟨hb, hne'⟩
  · rfl
  · exact absurd hkey.symm hne'
  · exact absurd hkey hne
  · exact hg a ha b hb hkey

/-- An edge is placed where no edge that stays is on its handles. -/
theorem Exclusive.of_placed (hg : g.Exclusive s)
    (hl : s.allowSelfLoops = false → e.source ≠ e.target)
    (hm : ∀ f ∈ h.edges, f = e ∨ f ∈ g.edges ∧ ¬ f.meets e.ends = true) : h.Exclusive s where
  sources := separate_of_placed hg.sources fun f hf =>
    (hm f hf).imp_right fun hstays =>
      ⟨hstays.1, fun hkey => hstays.2 (Edge.meets_iff.2 (.inl hkey))⟩
  targets := separate_of_placed hg.targets fun f hf =>
    (hm f hf).imp_right fun hstays =>
      ⟨hstays.1, fun hkey => hstays.2 (Edge.meets_iff.2 (.inr hkey))⟩
  anchored := h.anchored
  loops := by
    intro hno a ha
    rcases hm a ha with rfl | ⟨ha, -⟩
    · exact hl hno
    · exact hg.loops hno a ha

/-! ## Edits and gestures -/

theorem Exclusive.of_addEdge (hg : g.Exclusive s)
    (hl : s.allowSelfLoops = false → e.source ≠ e.target) (hadd : g.addEdge e = .ok h) :
    h.Exclusive s := by
  obtain ⟨-, hfits, -, hedges⟩ := addEdge_eq_ok_iff.1 hadd
  refine hg.of_placed hl fun f hf => ?_
  rw [hedges, List.mem_append, List.mem_singleton] at hf
  rcases hf with hf | hf
  · exact .inr ⟨hf, (misfit?_eq_none_iff.1 hfits).2.2 f hf (by simp)⟩
  · exact .inl hf

theorem Exclusive.of_replaceEdge (hg : g.Exclusive s) {id : String}
    (hl : s.allowSelfLoops = false → e.source ≠ e.target)
    (hreplace : g.replaceEdge id e = .ok h) : h.Exclusive s := by
  obtain ⟨-, -, hfits, -, hedges⟩ := replaceEdge_eq_ok_iff.1 hreplace
  refine hg.of_placed hl fun f hf => ?_
  rw [hedges, Distinct.put, List.mem_map] at hf
  obtain ⟨k, hk, rfl⟩ := hf
  by_cases hid : k.id = id
  · exact .inl (by simp [hid])
  · have hother : some k.id ≠ some id := fun he => hid (Option.some.inj he)
    have hfree := (misfit?_eq_none_iff.1 hfits).2.2 k hk hother
    rw [if_neg (by simpa using hid)]
    exact .inr ⟨hk, hfree⟩

theorem Exclusive.of_plan (hg : g.Exclusive s) {p : Plan} (ha : p.edge.ends.Allowed s g)
    (hp : p.apply g = .ok h) : h.Exclusive s := by
  have hcleared : (g.removeEdges p.doomed).Exclusive s :=
    hg.of_subset (List.filter_subset_self _)
  have hl : s.allowSelfLoops = false → p.edge.source ≠ p.edge.target := by
    intro hno heq
    rw [ha.loop heq] at hno
    cases hno
  unfold Plan.apply at hp
  dsimp only at hp
  split at hp
  · exact hcleared.of_addEdge hl hp
  · exact hcleared.of_replaceEdge hl hp

/-! ## Rebuilt graphs -/

theorem Line.exclusive {start finish : Node} {groups : List Node}
    (hline : g.Line start groups finish) : g.Exclusive s where
  sources := fun e he f hf hkey =>
    hline.unbranched e he f hf (.inl (congrArg HandleKey.node hkey))
  targets := fun e he f hf hkey =>
    hline.unbranched e he f hf (.inr (congrArg HandleKey.node hkey))
  anchored := g.anchored
  loops := fun _ e he heq => hline.acyclic e.source (.single ⟨e, he, rfl, heq.symm⟩)

end Graph

theorem Rebuild.exclusive {s : ConnectionSettings} {layout : Layout} {steps : List Step}
    {g : Graph} (h : Rebuild.graph layout steps = .ok g) : g.Exclusive s := by
  obtain ⟨hn, he⟩ := Graph.build_eq_ok_iff.1 h
  by_cases hs : steps = []
  · rw [hs] at he
    exact Graph.exclusive_of_edges_nil he
  · obtain ⟨_, _, hline, -⟩ := Rebuild.exists_line hn he hs
    exact hline.exclusive

/-! ## Documents -/

namespace Archive
variable {s : ConnectionSettings} {layout : Layout} {fields : Fields} {l : Loaded}

/-- Any graph that a document carries is exclusive. -/
def CarriesExclusive (s : ConnectionSettings) (fields : Fields) : Prop :=
  carries fields "nodes" = true → carries fields "edges" = true →
    ∀ g, Graph.ofSnapshot fields = .ok g → g.Exclusive s

/-- A loaded graph is the one that the document carries, or it is rebuilt from the steps. -/
theorem cases_of_loadFields (h : loadFields layout fields = .ok l) :
    (carries fields "nodes" = true ∧ carries fields "edges" = true ∧
        Graph.ofSnapshot fields = .ok l.graph ∧ l.reconstructed = false) ∨
      Rebuild.graph layout l.definition.steps = .ok l.graph ∧ l.reconstructed = true := by
  unfold loadFields at h
  split at h
  · cases hd : definitionOf (fields.keep fun name => !isGraphPart name) with
    | error failure =>
      rw [hd] at h
      cases h
    | ok d =>
      rw [hd] at h
      by_cases hparts : (carries fields "nodes" && carries fields "edges") = true
      · simp only [bind, Except.bind, hparts, if_true] at h
        rw [Bool.and_eq_true] at hparts
        cases hg : Graph.ofSnapshot fields with
        | error failure =>
          rw [hg] at h
          cases h
        | ok g =>
          rw [hg] at h
          cases h
          exact .inl ⟨hparts.1, hparts.2, rfl, rfl⟩
      · simp only [bind, Except.bind, hparts] at h
        cases hg : Rebuild.graph layout d.steps with
        | error fault =>
          rw [hg] at h
          cases h
        | ok g =>
          rw [hg] at h
          cases h
          exact .inr ⟨hg, rfl⟩
  · cases h

theorem exclusive_of_loadFields (hc : CarriesExclusive s fields)
    (h : loadFields layout fields = .ok l) : l.graph.Exclusive s := by
  rcases cases_of_loadFields h with ⟨hn, he, hg, -⟩ | ⟨hg, -⟩
  · exact hc hn he l.graph hg
  · exact Rebuild.exclusive hg

end Archive

/-! ## Runs -/

namespace Session
variable {σ : Type} {s t : Session} {document : Option Fields}

theorem Follows.exclusive (h : s.Follows document t)
    (hd : ∀ fields, document = some fields →
      Archive.CarriesExclusive s.settings.connection fields)
    (hs : s.graph.Exclusive s.settings.connection) :
    t.graph.Exclusive s.settings.connection := by
  cases h.2 with
  | kept he => exact hs.of_subset he
  | planned p ha hp => exact hs.of_plan ha hp
  | loaded fields l hf hl hg =>
    rw [hg]
    exact Archive.exclusive_of_loadFields (hd fields hf) hl

theorem settings_run (storage : Storage σ) (s : Session) (store : σ) (requests : List Request) :
    (run storage (s, store) requests).1.settings = s.settings := by
  induction requests using List.reverseRecOn with
  | nil => rfl
  | append_singleton before r ih =>
    rw [run_concat]
    exact (follows_next storage _ r).1.trans ih

theorem exclusive_of_run (storage : Storage σ) (s : Session) (store : σ)
    (requests : List Request)
    (hs : s.graph = Graph.empty ∨ s.graph.Exclusive s.settings.connection)
    (hd : ∀ before r after, requests = before ++ r :: after →
      ∀ fields, r.document? storage (run storage (s, store) before).2 = some fields →
        Archive.CarriesExclusive s.settings.connection fields) :
    (run storage (s, store) requests).1.graph.Exclusive s.settings.connection := by
  induction requests using List.reverseRecOn with
  | nil =>
    rcases hs with hempty | hs
    · exact Graph.exclusive_of_edges_nil (congrArg Graph.edges hempty)
    · exact hs
  | append_singleton before r ih =>
    have hbefore := ih fun prior q after hq => hd prior q (after ++ [r]) (by simp [hq])
    have hsettings := settings_run storage s store before
    rw [run_concat, ← hsettings]
    refine (follows_next storage _ r).exclusive ?_ (hsettings ▸ hbefore)
    rw [hsettings]
    exact hd before r [] rfl

/-! ## A run that loads a workflow on the way -/

/-- A storage that forgets everything. -/
def forgetful : Storage Unit := ⟨fun store _ _ => (.ok "", store), fun _ _ => .ok []⟩

def sampleRequests : List Request :=
  [.addNode Graph.sampleStart, .addNode Graph.sampleFinish,
    .connect (Ends.drop ⟨"s", none, "e", none⟩), .reconnectStart .null,
    .load (.obj Rebuild.sampleWorkflow.payload), .removeNode "step-1", .openNamed "review"]

theorem exclusive_sample_run :
    ({ settings := {} } : Session).graph = Graph.empty ∧
      (∀ before r after, sampleRequests = before ++ r :: after →
        ∀ fields, r.document? forgetful (run forgetful ({ settings := {} }, ()) before).2 =
          some fields → Archive.CarriesExclusive {} fields) ∧
      (run forgetful ({ settings := {} }, ()) sampleRequests).1.graph.Exclusive {} := by
  have hdocuments : ∀ before r after, sampleRequests = before ++ r :: after →
      ∀ fields, r.document? forgetful (run forgetful ({ settings := {} }, ()) before).2 =
        some fields → Archive.CarriesExclusive {} fields := by
    intro before r after hsplit fields hdoc hnodes
    have hr : r ∈ sampleRequests := hsplit ▸ by simp
    simp only [sampleRequests, List.mem_cons, List.not_mem_nil, or_false] at hr
    rcases hr with rfl | rfl | rfl | rfl | rfl | rfl | rfl
    all_goals cases hdoc
    all_goals exact absurd hnodes (by decide)
  exact ⟨rfl, hdocuments,
    exclusive_of_run forgetful { settings := {} } () sampleRequests (.inl rfl) hdocuments⟩

end Session
end WorkflowCanvas
