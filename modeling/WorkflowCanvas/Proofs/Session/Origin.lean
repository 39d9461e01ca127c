import WorkflowCanvas.Proofs.Attempt
import WorkflowCanvas.Proofs.Graph.Reading
import WorkflowCanvas.Proofs.Graph.Scan
import WorkflowCanvas.Proofs.Node.Suited
import WorkflowCanvas.Proofs.Session.Exclusive

/-! Where the nodes of a graph come from. Main statement: whatever is done to a graph, by edits of
its own and by requests to its session, each of its nodes was there at the start or was added or
loaded on the way, has kept the kind it came with, and carries data of the model of that kind. -/
namespace WorkflowCanvas
set_option autoImplicit false

/-! ## Edits -/

namespace Graph
variable {g h : Graph} {n : Node}

/-- Every node of a later graph is a node of a former one, perhaps edited, or has entered. -/
def Inherits (entered : Node → Prop) (g h : Graph) : Prop :=
  ∀ n ∈ h.nodes, (∃ m ∈ g.nodes, m.Like n) ∨ entered n

variable {entered : Node → Prop}

theorem Inherits.of_subset (hn : h.nodes ⊆ g.nodes) : Inherits entered g h :=
  fun n hm => .inl ⟨n, hn hm, .refl n⟩

theorem Inherits.of_nodes_eq (hn : h.nodes = g.nodes) : Inherits entered g h :=
  .of_subset (hn ▸ List.Subset.refl _)

theorem nodes_removeNode_subset (id : String) : (g.removeNode id).nodes ⊆ g.nodes := by
  unfold removeNode
  split
  · exact List.filter_subset_self _
  · exact List.Subset.refl _

theorem inherits_addNode (h' : g.addNode n = .ok h) (hn : entered n) : Inherits entered g h := by
  intro m hm
  rw [(addNode_eq_ok_iff.1 h').2.1, List.mem_append, List.mem_singleton] at hm
  rcases hm with hm | rfl
  · exact .inl ⟨m, hm, .refl m⟩
  · exact .inr hn

/-- A node is only ever replaced by one of its identifier and kind. -/
theorem inherits_putNode {k : Node} {id : String} (hk : g.node? id = some k) (hlike : k.Like n) :
    Inherits entered g (g.putNode n) := by
  intro m hm
  obtain ⟨l, hl, rfl⟩ := List.mem_map.1 hm
  refine .inl ?_
  split
  · exact ⟨k, (node?_eq_some_iff.1 hk).1, hlike⟩
  · exact ⟨l, hl, .refl l⟩

theorem inherits_updateData {id : String} {changes : Fields}
    (h' : g.updateData id changes = .ok h) : Inherits entered g h := by
  obtain ⟨n, m, hn, hm, rfl⟩ := updateData_eq_ok_iff.1 h'
  exact inherits_putNode hn (Node.like_of_withData hm)

theorem inherits_moveNode {id : String} {x y : Json} (h' : g.moveNode id x y = .ok h) :
    Inherits entered g h := by
  obtain ⟨n, m, hn, hm, rfl⟩ := moveNode_eq_ok_iff.1 h'
  exact inherits_putNode hn (Node.like_of_movedTo (Checked.orFail_eq_ok_iff.1 hm))

theorem nodes_of_plan {p : Plan} (h' : p.apply g = .ok h) : h.nodes = g.nodes := by
  unfold Plan.apply at h'
  dsimp only at h'
  split at h'
  · exact (addEdge_eq_ok_iff.1 h').2.2.1
  · exact (replaceEdge_eq_ok_iff.1 h').2.2.2.1

theorem nodes_of_resolution {r : Resolution} (h' : r.apply g = .ok h) : h.nodes = g.nodes := by
  rcases cases_of_apply h' with rfl | ⟨p, -, hp⟩
  · rfl
  · exact nodes_of_plan hp

theorem inherits_change {c : Change} (h' : c.apply g = .ok h)
    (hc : ∀ n, c = .addNode n → entered n) : Inherits entered g h := by
  cases c with
  | addNode n => exact inherits_addNode (orFault_eq_ok_iff.1 h') (hc n rfl)
  | removeNode id =>
    cases h'
    exact .of_subset (nodes_removeNode_subset id)
  | updateData id changes => exact inherits_updateData (orFault_eq_ok_iff.1 h')
  | moveNode id x y => exact inherits_moveNode h'
  | addEdge e => exact .of_nodes_eq (addEdge_eq_ok_iff.1 (orFault_eq_ok_iff.1 h')).2.2.1
  | removeEdge id =>
    cases h'
    exact .of_nodes_eq rfl
  | removeEdges ids =>
    cases h'
    exact .of_nodes_eq rfl
  | replaceEdge id e =>
    exact .of_nodes_eq (replaceEdge_eq_ok_iff.1 (orFault_eq_ok_iff.1 h')).2.2.2.1

end Graph

/-! ## Deeds -/

/-- What is done to the graph of a session: an edit of its own, or a request to the session. -/
inductive Deed where
  | edit (c : Change)
  | request (r : Request)

namespace Session
variable {σ : Type}

/-- A session and its store after a deed, whatever it came to. -/
def act (storage : Storage σ) (here : Session × σ) : Deed → Session × σ
  | .edit c => ((here.1.edited (c.apply here.1.graph) fun _ => .done).2, here.2)
  | .request r => next storage here r

/-- A session and its store after deeds. -/
def after (storage : Storage σ) (start : Session × σ) (deeds : List Deed) : Session × σ :=
  deeds.foldl (act storage) start

/-- The nodes that a deed brings in: one that is added, one that is built for an agent, or those of
a document that is loaded. -/
inductive Enters (storage : Storage σ) (here : Session × σ) : Deed → Node → Prop
  | edited (n : Node) : Enters storage here (.edit (.addNode n)) n
  | added (n : Node) : Enters storage here (.request (.addNode n)) n
  | placed {agent : String} {x y : Json} {n : Node}
      (h : ((here.1.agentDraft agent x y).build here.1.supply).1 = .ok n) :
      Enters storage here (.request (.addAgent agent x y)) n
  | loaded {r : Request} {fields : Fields} {l : Archive.Loaded} {n : Node}
      (hd : r.document? storage here.2 = some fields)
      (hl : Archive.loadFields here.1.settings.layout fields = .ok l) (hn : n ∈ l.graph.nodes) :
      Enters storage here (.request r) n

variable {storage : Storage σ} {here : Session × σ} {entered : Node → Prop}

theorem inherits_edited {s : Session} {result : Except Failure Graph} {answer : Graph → Answer}
    (h : ∀ g, result = .ok g → Graph.Inherits entered s.graph g) :
    Graph.Inherits entered s.graph (s.edited result answer).2.graph := by
  cases result with
  | ok g => exact h g rfl
  | error failure => exact .of_nodes_eq rfl

theorem inherits_connect (s : Session) (d : Drop) :
    Graph.Inherits entered s.graph (s.connect d).2.graph := by
  have hedited : ∀ supply, Graph.Inherits entered s.graph
      (Session.edited { s with supply } (Graph.orFault ((s.resolution d).apply s.graph))
        fun _ => .done).2.graph := fun supply =>
    inherits_edited (s := { s with supply }) fun g hg =>
      .of_nodes_eq (Graph.nodes_of_resolution (Graph.orFault_eq_ok_iff.1 hg))
  exact hedited (s.supply.spentIf (s.resolution d).takesName)

theorem inherits_reconnect (s : Session) (edge : Option String) (d : Drop) :
    Graph.Inherits entered s.graph (s.reconnect edge d).2.graph := by
  unfold reconnect
  split
  · rename_i g hg
    exact .of_nodes_eq (Graph.nodes_of_resolution hg)
  · exact .of_nodes_eq rfl

theorem inherits_addAgent (s : Session) (agent : String) (x y : Json)
    (hn : ∀ n, ((s.agentDraft agent x y).build s.supply).1 = .ok n → entered n) :
    Graph.Inherits entered s.graph (s.addAgent agent x y).2.graph := by
  have hedited : ∀ supply, Graph.Inherits entered s.graph
      (Session.edited { s with supply } (((s.agentDraft agent x y).build s.supply).1 >>=
        fun n => Graph.orFault (s.graph.addNode n)) fun _ => .done).2.graph := by
    intro supply
    refine inherits_edited (s := { s with supply }) fun g hg => ?_
    obtain ⟨n, hbuilt, hadded⟩ := Attempt.bind_eq_ok_iff.1 hg
    exact Graph.inherits_addNode (Graph.orFault_eq_ok_iff.1 hadded) (hn n hbuilt)
  exact hedited ((s.agentDraft agent x y).build s.supply).2

theorem inherits_load (s : Session) (v : Json) (hn : ∀ fields l, v = .obj fields →
    Archive.loadFields s.settings.layout fields = .ok l → ∀ n ∈ l.graph.nodes, entered n) :
    Graph.Inherits entered s.graph (s.load v).2.graph := by
  unfold load
  cases hl : Archive.load s.settings.layout v with
  | error failure => exact .of_nodes_eq rfl
  | ok l =>
    cases v with
    | obj fields => exact fun n hm => .inr (hn fields l rfl hl n hm)
    | _ => cases hl

theorem inherits_openNamed (storage : Storage σ) (s : Session) (store : σ) (name : String)
    (hn : ∀ fields l, storage.load store name = .ok fields →
      Archive.loadFields s.settings.layout fields = .ok l → ∀ n ∈ l.graph.nodes, entered n) :
    Graph.Inherits entered s.graph (s.openNamed storage store name).2.graph := by
  unfold openNamed
  cases hfields : storage.load store name with
  | error failure => exact .of_nodes_eq rfl
  | ok fields =>
    refine inherits_load s _ fun others l heq hl => ?_
    cases heq
    exact hn fields l hfields hl

/-- Nodes enter by the deeds that are for it alone, and stay the nodes they are by all others. -/
theorem inherits_act (storage : Storage σ) (here : Session × σ) (d : Deed) :
    Graph.Inherits (Enters storage here d) here.1.graph (act storage here d).1.graph := by
  cases d with
  | edit c =>
    refine inherits_edited fun g hg => Graph.inherits_change hg fun n hc => ?_
    rw [hc]
    exact .edited n
  | request r =>
    cases r with
    | connect d => exact inherits_connect here.1 d
    | reconnect edge d => exact inherits_reconnect here.1 edge d
    | addNode n =>
      exact inherits_edited fun g hg =>
        Graph.inherits_addNode (Graph.orFault_eq_ok_iff.1 hg) (.added n)
    | addAgent agent x y => exact inherits_addAgent here.1 agent x y fun n hn => .placed hn
    | removeNode id =>
      refine inherits_edited fun g hg => ?_
      cases hg
      exact .of_subset (Graph.nodes_removeNode_subset id)
    | updateData id changes =>
      exact inherits_edited fun g hg => Graph.inherits_updateData (Graph.orFault_eq_ok_iff.1 hg)
    | moveNode id x y => exact inherits_edited fun g hg => Graph.inherits_moveNode hg
    | removeEdge id =>
      refine inherits_edited fun g hg => ?_
      cases hg
      exact .of_nodes_eq rfl
    | load v =>
      refine inherits_load here.1 v fun fields l hv hl n hn => .loaded ?_ hl hn
      rw [hv]
      rfl
    | openNamed name =>
      refine inherits_openNamed storage here.1 here.2 name fun fields l hf hl n hn =>
        .loaded ?_ hl hn
      rw [Request.document?, hf]
      rfl
    | reconnectStart edge =>
      show Graph.Inherits _ here.1.graph (here.1.reconnectStart edge).2.graph
      unfold reconnectStart
      split <;> exact .of_nodes_eq rfl
    | compile source =>
      show Graph.Inherits _ here.1.graph (here.1.compile source).2.graph
      unfold compile
      split <;> exact .of_nodes_eq rfl
    | exporting source withSnapshot =>
      show Graph.Inherits _ here.1.graph (here.1.exporting source withSnapshot).2.graph
      unfold exporting
      split <;> exact .of_nodes_eq rfl
    | save source =>
      show Graph.Inherits _ here.1.graph (here.1.save storage here.2 source).1.2.graph
      unfold save
      split <;> exact .of_nodes_eq rfl
    | reconnectEnd | validate | snapshot => exact .of_nodes_eq rfl

/-- A node that was there at the start or entered on the way, perhaps as it was before edits. -/
def Stems (storage : Storage σ) (start : Session × σ) (deeds : List Deed) (n : Node) : Prop :=
  (∃ m ∈ start.1.graph.nodes, m.Like n) ∨
    ∃ before d later, deeds = before ++ d :: later ∧
      ∃ m, Enters storage (after storage start before) d m ∧ m.Like n

theorem stems_after (storage : Storage σ) (start : Session × σ) (deeds : List Deed) :
    ∀ n ∈ (after storage start deeds).1.graph.nodes, Stems storage start deeds n := by
  induction deeds using List.reverseRecOn with
  | nil => exact fun n hn => .inl ⟨n, hn, .refl n⟩
  | append_singleton before d ih =>
    intro n hn
    rw [after, List.foldl_append] at hn
    -- A node of the last graph entered just now, or is one of the graph before, edited or not.
    rcases inherits_act storage (after storage start before) d n hn with ⟨m, hm, hlike⟩ | hentered
    · rcases ih m hm with ⟨k, hk, hkm⟩ | ⟨prior, e, later, rfl, k, hk, hkm⟩
      · exact .inl ⟨k, hk, hkm.trans hlike⟩
      · exact .inr ⟨prior, e, later ++ [d], by simp, k, hk, hkm.trans hlike⟩
    · exact .inr ⟨before, d, [], rfl, n, hentered, .refl n⟩

end Session

/-! ## Nodes that are built and read -/

theorem NodeDraft.readFrom_of_build {d : NodeDraft} {supply : Supply} {n : Node}
    (h : (d.build supply).1 = .ok n) : n.kind = d.kind ∧
      ∃ fields, fields.get? "data" = some (.obj d.data.dropNulls) ∧ Node.ReadFrom fields n := by
  have hfinished : d.finished supply = .accepted n := by
    have hfail : (d.finished supply).orFail = .ok n := h
    cases hf : d.finished supply with
    | accepted m =>
      rw [hf] at hfail
      cases hfail
      rfl
    | refused problems => rw [hf] at hfail; cases hfail
    | unkeyable word => rw [hf] at hfail; cases hfail
  unfold finished at hfinished
  cases hposition : Position.ofFields [("x", d.x), ("y", d.y)] with
  | refused problems => rw [hposition] at hfinished; cases hfinished
  | unkeyable word => rw [hposition] at hfinished; cases hfinished
  | accepted position =>
    rw [hposition, Checked.andThen_accepted, Node.ofFields_eq_accepted_iff] at hfinished
    have hkind : NodeKind.ofJson (.str d.kind.word) = .accepted (some n.kind) := hfinished.kind
    rw [NodeKind.ofJson_word, Checked.accepted.injEq, Option.some_inj] at hkind
    exact ⟨hkind.symm, _, rfl, hfinished⟩

namespace Graph
variable {snapshot fields : Fields} {g : Graph} {items : List Json}

/-- The nodes of a snapshot are its entries, read one by one. -/
theorem nodes_of_ofSnapshot (h : ofSnapshot snapshot = .ok g) :
    ∃ items, part snapshot "nodes" = .ok items ∧ items.map Node.ofJson = g.nodes.map .accepted := by
  unfold ofSnapshot at h
  obtain ⟨items, hitems, h⟩ := Attempt.bind_eq_ok_iff.1 h
  obtain ⟨others, -, h⟩ := Attempt.bind_eq_ok_iff.1 h
  obtain ⟨nodes, hnodes, h⟩ := Attempt.bind_eq_ok_iff.1 h
  obtain ⟨edges, -, h⟩ := Attempt.bind_eq_ok_iff.1 h
  obtain rfl : g.nodes = nodes := (build_eq_ok_iff.1 (orFault_eq_ok_iff.1 h)).1
  exact ⟨items, orFault_eq_ok_iff.1 hitems, entriesOf_eq_ok_iff.1 hnodes⟩

theorem readFrom_of_ofSnapshot (h : ofSnapshot snapshot = .ok g) {n : Node} (hn : n ∈ g.nodes) :
    ∃ items fields, snapshot.get? "nodes" = some (.arr items) ∧ .obj fields ∈ items ∧
      Node.ReadFrom fields n := by
  obtain ⟨items, hitems, hread⟩ := nodes_of_ofSnapshot h
  have haccepted : .accepted n ∈ items.map Node.ofJson := hread ▸ List.mem_map_of_mem hn
  obtain ⟨v, hv, hnode⟩ := List.mem_map.1 haccepted
  cases v with
  | obj fields =>
    exact ⟨items, fields, (part_eq_ok_iff_of_ne_nil (List.ne_nil_of_mem hv)).1 hitems, hv,
      Node.ofFields_eq_accepted_iff.1 hnode⟩
  | _ => cases hnode

/-- A single entry that is no node keeps a snapshot from being a graph. -/
theorem ofSnapshot_ne_ok {problems : List Problem}
    (hitems : snapshot.get? "nodes" = some (.arr items)) (hv : .obj fields ∈ items)
    (hrefused : Node.ofFields fields = .refused problems) : ofSnapshot snapshot ≠ .ok g := by
  intro h
  obtain ⟨others, hothers, hread⟩ := nodes_of_ofSnapshot h
  cases (part_of_list hitems).symm.trans hothers
  have hmem : Node.ofJson (.obj fields) ∈ g.nodes.map .accepted := hread ▸ List.mem_map_of_mem hv
  obtain ⟨n, -, hn⟩ := List.mem_map.1 hmem
  cases hn.trans hrefused

end Graph

namespace Session
variable {σ : Type}

/-! ## All nodes -/

theorem suited_after (storage : Storage σ) (start : Session × σ) (deeds : List Deed) :
    (∀ fields n, Node.ofFields fields = .accepted n ↔ Node.ReadFrom fields n) ∧
    (∀ fields cargo n, Node.around fields cargo = .accepted n ↔
      NodeKind.ofJson (Node.kindValue fields) = .accepted (some n.kind) ∧ n.payload.cargo = cargo ∧
        Node.idOf fields = .accepted ⟨n.id, n.named⟩ ∧
          Node.positionOf fields = .accepted n.position) ∧
    (∀ (draft : NodeDraft) supply n, (draft.build supply).1 = .ok n → n.kind = draft.kind ∧
      ∃ fields, fields.get? "data" = some (.obj draft.data.dropNulls) ∧ Node.ReadFrom fields n) ∧
    (∀ snapshot g, Graph.ofSnapshot snapshot = .ok g → ∀ n ∈ g.nodes, ∃ items fields,
      snapshot.get? "nodes" = some (.arr items) ∧ .obj fields ∈ items ∧ Node.ReadFrom fields n) ∧
    (∀ fields data kind problems,
      NodeKind.ofJson (Node.kindValue fields) = .accepted (some kind) →
      fields.get? "data" = some (.obj data) →
      Node.Cargo.ofJson? (Payload.modelOf kind) (.obj data) = some (.refused problems) →
        Node.ofFields fields = .refused problems ∧
          ∀ snapshot items, snapshot.get? "nodes" = some (.arr items) → .obj fields ∈ items →
            ∀ g, Graph.ofSnapshot snapshot ≠ .ok g) ∧
    ∀ n ∈ (after storage start deeds).1.graph.nodes, n.Suited ∧ Stems storage start deeds n := by
  refine ⟨fun _ _ => Node.ofFields_eq_accepted_iff, fun _ _ _ => Node.around_eq_accepted_iff,
    fun _ _ _ => NodeDraft.readFrom_of_build, fun _ _ h _ hn => Graph.readFrom_of_ofSnapshot h hn,
    ?_, fun n hn => ⟨n.suited, stems_after storage start deeds n hn⟩⟩
  intro fields data kind problems hk hdata hrefused
  have hnode := Node.ofFields_of_refused hk hdata hrefused
  exact ⟨hnode, fun _ _ hitems hv _ => Graph.ofSnapshot_ne_ok hitems hv hnode⟩

/-- A step group whose label is blank, which would do for the start or the end. -/
def blankGroup : Fields :=
  [("id", .str "a"), ("type", .str "step-group"), ("data", .obj [("label", .str " ")])]

def blankProblems : List Problem := [⟨[.field "title"], .blankGroupTitle⟩]

/-- A step group that is renamed, and a start beside it. -/
def sampleDeeds : List Deed :=
  [.edit (.updateData "only" [("title", .str "Draft")]), .request (.addNode Graph.sampleStart)]

def sampleBeginning (settings : Settings) : Session × Unit :=
  ({ settings, graph := Graph.newSpelling }, ())

theorem suited_after_sample :
    (TerminalData.ofFields [("label", .str " ")] = .accepted ⟨" ", none⟩ ∧
      Node.ofFields blankGroup = .refused blankProblems ∧
        ∀ g, Graph.ofSnapshot [("nodes", .arr [.obj blankGroup])] ≠ .ok g) ∧
    (∃ fields, fields.get? "data" = some (.obj [("label", .str "Start")]) ∧
      Node.ReadFrom fields Graph.sampleStart) ∧
    (∃ n items fields, n ∈ Graph.newSpelling.nodes ∧
      Graph.oldSpelling.get? "nodes" = some (.arr items) ∧ .obj fields ∈ items ∧
        Node.ReadFrom fields n) ∧
    Graph.sampleStart.Suited ∧
      Stems forgetful (sampleBeginning {}) sampleDeeds Graph.sampleStart := by
  obtain ⟨-, -, hbuilt, hread, hrefused, hafter⟩ :=
    suited_after forgetful (sampleBeginning {}) sampleDeeds
  have hdraft : (((NodeDraft.start (.str "Start")).withId (.str "s")).build {}).1 =
      .ok Graph.sampleStart := rfl
  have hnodes : ∀ n ∈ Graph.newSpelling.nodes, ∃ items fields,
      Graph.oldSpelling.get? "nodes" = some (.arr items) ∧ .obj fields ∈ items ∧
        Node.ReadFrom fields n := hread _ _ Graph.ofSnapshot_oldSpelling
  obtain ⟨hblank, hno⟩ := hrefused blankGroup [("label", .str " ")] .stepGroup blankProblems
    rfl rfl rfl
  obtain ⟨items, fields, hitems, hv, hnode⟩ := hnodes _ List.mem_cons_self
  have hmem : Graph.sampleStart ∈
      (after forgetful (sampleBeginning {}) sampleDeeds).1.graph.nodes :=
    List.mem_append_right [_] List.mem_cons_self
  exact ⟨⟨rfl, hblank, hno _ _ rfl List.mem_cons_self⟩, (hbuilt _ _ _ hdraft).2,
    ⟨_, items, fields, List.mem_cons_self, hitems, hv, hnode⟩, hafter _ hmem⟩

end Session
end WorkflowCanvas
