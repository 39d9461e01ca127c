import WorkflowCanvas.Proofs.Gesture.Settled
import WorkflowCanvas.Session.Basic

/-! Sessions from request to request. Main statement: a request keeps the settings, and whatever it
comes to, the graph after it has no edge that was not there before, or it is what a plan between
allowed ends made of the graph before, or it is the graph of the document that was loaded. -/
namespace WorkflowCanvas
set_option autoImplicit false

namespace Graph
variable {g h : Graph}

/-! ## Gestures -/

variable {s : ConnectionSettings} {fresh : Identifier} {d : Drop} {p : Plan}

theorem allowed_of_resolveConnect (h : g.resolveConnect s fresh d = .planned p) :
    p.edge.ends.Allowed s g := by
  unfold resolveConnect at h
  cases hd : d.ends s g with
  | error why =>
    simp only [hd] at h
    cases h
  | ok ends =>
    have ha := (Drop.ends_eq_ok_iff.1 hd).2
    simp only [hd] at h
    split at h
    all_goals
      cases h
      exact ha

theorem allowed_of_resolveReconnect {edge : Option String}
    (h : g.resolveReconnect s edge d = .planned p) : p.edge.ends.Allowed s g := by
  unfold resolveReconnect at h
  split at h
  · cases h
  · cases hd : d.ends s g with
    | error why =>
      simp only [hd] at h
      cases h
    | ok ends =>
      have ha := (Drop.ends_eq_ok_iff.1 hd).2
      simp only [hd] at h
      split at h
      · cases h
      · cases h
        exact ha

theorem allowed_of_resolveSignal {gesture : Gesture}
    (h : g.resolveSignal s fresh gesture d = .planned p) : p.edge.ends.Allowed s g := by
  unfold resolveSignal at h
  split at h
  · split at h
    · cases h
    · exact allowed_of_resolveReconnect h
  · exact allowed_of_resolveConnect h

/-- A graph after a gesture is the graph before it, or what a plan made of that. -/
theorem cases_of_apply {r : Resolution} (h' : r.apply g = .ok h) :
    h = g ∨ ∃ p, r = .planned p ∧ p.apply g = .ok h := by
  cases r with
  | ignored why =>
    cases h'
    exact .inl rfl
  | settled =>
    cases h'
    exact .inl rfl
  | planned p => exact .inr ⟨p, rfl, h'⟩

end Graph

/-! ## Requests -/

/-- The fields of the document that a request loads. -/
def Request.document? {σ : Type} (storage : Storage σ) (store : σ) : Request → Option Fields
  | .load (.obj fields) => some fields
  | .openNamed name => (storage.load store name).toOption
  | _ => none

/-- Whether a request places an agent, which takes an identifier for the node. -/
def Request.placesAgent : Request → Bool
  | .addAgent .. => true
  | _ => false

/-- Whether a request is neither a gesture nor a load. -/
def Request.isQuiet : Request → Bool
  | .connect _ | .reconnectStart _ | .reconnect .. | .reconnectEnd | .load _ | .openNamed _ => false
  | _ => true

namespace Session
variable {σ : Type}

/-- A session and its store after a request, whatever the request came to. -/
def next (storage : Storage σ) (before : Session × σ) (r : Request) : Session × σ :=
  let outcome := before.1.handle storage before.2 r
  (outcome.1.2, outcome.2)

/-- A session and its store after requests. -/
def run (storage : Storage σ) (start : Session × σ) (requests : List Request) : Session × σ :=
  requests.foldl (next storage) start

theorem run_concat (storage : Storage σ) (start : Session × σ) (requests : List Request)
    (r : Request) :
    run storage start (requests ++ [r]) = next storage (run storage start requests) r := by
  rw [run, List.foldl_append]
  rfl

theorem run_append (storage : Storage σ) (start : Session × σ) (these those : List Request) :
    run storage start (these ++ those) = run storage (run storage start these) those :=
  List.foldl_append

/-! ## Quiet requests -/

/-- What a quiet request leaves of a session: no edge is new, nothing is picked up or put down, and
an identifier is taken for an agent only. -/
structure Quiet (r : Request) (s t : Session) : Prop where
  settings : t.settings = s.settings
  gesture : t.gesture = s.gesture
  edges : t.graph.edges ⊆ s.graph.edges
  supply : t.supply = s.supply.spentIf r.placesAgent

theorem Quiet.of_same {r : Request} {s : Session} (hr : r.placesAgent = false) : Quiet r s s :=
  ⟨rfl, rfl, List.Subset.refl _, by rw [hr]; rfl⟩

theorem quiet_edited {r : Request} {s : Session} {result : Except Failure Graph}
    {answer : Graph → Answer} (hr : r.placesAgent = false)
    (h : ∀ g, result = .ok g → g.edges ⊆ s.graph.edges) :
    Quiet r s (s.edited result answer).2 := by
  cases result with
  | ok g => exact ⟨rfl, rfl, h g rfl, by rw [hr]; rfl⟩
  | error failure => exact .of_same hr

theorem build_agentDraft (s : Session) (agent : String) (x y : Json) :
    ((s.agentDraft agent x y).build s.supply).2 = s.supply.spent := by
  have hname : (s.agentDraft agent x y).takesName = true := by
    unfold agentDraft
    cases s.catalog.bind (·.find? agent) <;> rfl
  rw [NodeDraft.build, hname]
  rfl

theorem quiet_addAgent (s : Session) (agent : String) (x y : Json) :
    Quiet (.addAgent agent x y) s (s.addAgent agent x y).2 := by
  have hedited : ∀ built : Except Failure Node, Quiet (.addAgent agent x y) s
      (Session.edited { s with supply := s.supply.spent }
        (built >>= fun n => Graph.orFault (s.graph.addNode n)) fun _ => .done).2 := by
    intro built
    cases hg : built >>= fun n => Graph.orFault (s.graph.addNode n) with
    | error failure => exact ⟨rfl, rfl, List.Subset.refl _, rfl⟩
    | ok g =>
      cases built with
      | error failure => cases hg
      | ok n =>
        have hedges := (Graph.addNode_eq_ok_iff.1 (Graph.orFault_eq_ok_iff.1 hg)).2.2
        exact ⟨rfl, rfl, hedges ▸ List.Subset.refl _, rfl⟩
  have hplaced := hedited ((s.agentDraft agent x y).build s.supply).1
  rw [← build_agentDraft s agent x y] at hplaced
  exact hplaced

theorem quiet_next (storage : Storage σ) (s : Session) (store : σ) {r : Request}
    (hr : r.isQuiet = true) : Quiet r s (next storage (s, store) r).1 := by
  cases r with
  | addNode n =>
    refine quiet_edited rfl fun g hg => ?_
    rw [Graph.orFault_eq_ok_iff, Graph.addNode_eq_ok_iff] at hg
    exact hg.2.2 ▸ List.Subset.refl _
  | addAgent agent x y => exact quiet_addAgent s agent x y
  | removeNode id =>
    refine quiet_edited rfl fun g hg => ?_
    cases hg
    exact Graph.edges_removeNode_subset id
  | updateData id changes =>
    refine quiet_edited rfl fun g hg => ?_
    rw [Graph.orFault_eq_ok_iff, Graph.updateData_eq_ok_iff] at hg
    obtain ⟨_, m, -, -, rfl⟩ := hg
    exact Graph.edges_putNode m ▸ List.Subset.refl _
  | moveNode id x y =>
    refine quiet_edited rfl fun g hg => ?_
    obtain ⟨_, m, -, -, rfl⟩ := Graph.moveNode_eq_ok_iff.1 hg
    exact Graph.edges_putNode m ▸ List.Subset.refl _
  | removeEdge id =>
    refine quiet_edited rfl fun g hg => ?_
    cases hg
    exact List.filter_subset_self _
  | compile source =>
    show Quiet _ s (s.compile source).2
    unfold compile
    split <;> exact ⟨rfl, rfl, List.Subset.refl _, rfl⟩
  | exporting source withSnapshot =>
    show Quiet _ s (s.exporting source withSnapshot).2
    unfold exporting
    split <;> exact ⟨rfl, rfl, List.Subset.refl _, rfl⟩
  | save source =>
    show Quiet _ s (s.save storage store source).1.2
    unfold save
    split <;> exact ⟨rfl, rfl, List.Subset.refl _, rfl⟩
  | validate => exact .of_same rfl
  | snapshot => exact .of_same rfl
  | connect | reconnectStart | reconnect | reconnectEnd | load | openNamed => cases hr

/-! ## Turns -/

/-- What can become of a graph by a request that may load a document. -/
inductive Turn (settings : Settings) (document : Option Fields) (g h : Graph) : Prop
  | kept (he : h.edges ⊆ g.edges)
  | planned (p : Plan) (ha : p.edge.ends.Allowed settings.connection g) (hp : p.apply g = .ok h)
  | loaded (fields : Fields) (l : Archive.Loaded) (hd : document = some fields)
      (hl : Archive.loadFields settings.layout fields = .ok l) (hg : h = l.graph)

/-- A later session of the same settings whose graph is a turn of the former one. -/
def Follows (s : Session) (document : Option Fields) (t : Session) : Prop :=
  t.settings = s.settings ∧ Turn s.settings document s.graph t.graph

variable {s : Session} {document : Option Fields}

theorem Turn.refl {settings : Settings} {g : Graph} : Turn settings document g g :=
  .kept (List.Subset.refl _)

theorem follows_edited {result : Except Failure Graph} {answer : Graph → Answer}
    (h : ∀ g, result = .ok g → Turn s.settings document s.graph g) :
    s.Follows document (s.edited result answer).2 := by
  cases result with
  | ok g => exact ⟨rfl, h g rfl⟩
  | error failure => exact ⟨rfl, .refl⟩

theorem turn_of_apply {r : Resolution} {g : Graph}
    (ha : ∀ p, r = .planned p → p.edge.ends.Allowed s.settings.connection s.graph)
    (h : r.apply s.graph = .ok g) : Turn s.settings document s.graph g := by
  rcases Graph.cases_of_apply h with rfl | ⟨p, hr, hp⟩
  · exact .refl
  · exact .planned p (ha p hr) hp

theorem follows_connect (d : Drop) : s.Follows document (s.connect d).2 := by
  have hedited : ∀ supply, Follows { s with supply } document
      (Session.edited { s with supply } (Graph.orFault ((s.resolution d).apply s.graph))
        fun _ => .done).2 := by
    intro supply
    refine follows_edited fun g hg => ?_
    have hg := Graph.orFault_eq_ok_iff.1 hg
    exact turn_of_apply (s := s) (fun p hp => Graph.allowed_of_resolveSignal hp) hg
  exact hedited (s.supply.spentIf (s.resolution d).takesName)

theorem follows_reconnect (edge : Option String) (d : Drop) :
    s.Follows document (s.reconnect edge d).2 := by
  unfold reconnect
  split
  · rename_i g hg
    exact ⟨rfl, turn_of_apply (fun p hp => Graph.allowed_of_resolveReconnect hp) hg⟩
  · exact ⟨rfl, .refl⟩

theorem follows_load (v : Json) (h : ∀ fields, v = .obj fields → document = some fields) :
    s.Follows document (s.load v).2 := by
  unfold load
  cases hl : Archive.load s.settings.layout v with
  | error failure => exact ⟨rfl, .refl⟩
  | ok l =>
    cases v with
    | obj fields => exact ⟨rfl, .loaded fields l (h fields rfl) hl rfl⟩
    | _ => cases hl

theorem follows_openNamed (storage : Storage σ) (store : σ) (name : String)
    (h : document = (storage.load store name).toOption) :
    s.Follows document (s.openNamed storage store name).2 := by
  unfold openNamed
  cases hl : storage.load store name with
  | error failure => exact ⟨rfl, .refl⟩
  | ok fields =>
    refine follows_load _ fun others heq => ?_
    cases heq
    rw [h, hl]
    rfl

theorem Quiet.follows {r : Request} {t : Session} (h : Quiet r s t) : s.Follows document t :=
  ⟨h.settings, .kept h.edges⟩

theorem follows_next (storage : Storage σ) (store : σ) (r : Request) :
    s.Follows (r.document? storage store) (next storage (s, store) r).1 := by
  by_cases hr : r.isQuiet = true
  · exact (quiet_next storage s store hr).follows
  cases r with
  | connect d => exact follows_connect d
  | reconnect edge d => exact follows_reconnect edge d
  | load v =>
    refine follows_load v fun fields hv => ?_
    rw [hv]
    rfl
  | openNamed name => exact follows_openNamed storage store name rfl
  | reconnectStart edge =>
    show Follows s none (s.reconnectStart edge).2
    unfold reconnectStart
    split <;> exact ⟨rfl, .refl⟩
  | reconnectEnd => exact ⟨rfl, .refl⟩
  | _ => exact absurd rfl hr

end Session
end WorkflowCanvas
