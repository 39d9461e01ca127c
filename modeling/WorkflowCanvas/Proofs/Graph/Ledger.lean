import WorkflowCanvas.Proofs.Attempt
import WorkflowCanvas.Proofs.Gesture.Settled
import WorkflowCanvas.Proofs.Graph.Edits
import WorkflowCanvas.Proofs.Graph.Snapshot
import WorkflowCanvas.Graph.Change

/-! Graphs against ledgers. A ledger holds nodes and edges under keys, and its edits look at nothing
but the keys: no identifier, end or handle is checked. Main statements: what a change that succeeds
makes of a graph is what the unchecked edit makes of its ledger; after any changes every entry of
the ledger stands under its own identifier, the entries pass the checks of building and give the
graph that was reached, and its indexes say what a scan of its edges says. -/
namespace WorkflowCanvas
set_option autoImplicit false

/-! ## Entries under keys -/

/-- Items under keys, in the order in which the keys came into use. -/
abbrev Entered (α : Type) := List (String × α)

namespace Entered
variable {α : Type}

/-- Puts an item under a key, in the place of the item that was there or else at the end. -/
def enter (key : String) (a : α) : Entered α → Entered α
  | [] => [(key, a)]
  | (k, b) :: rest => if k == key then (key, a) :: rest else (k, b) :: enter key a rest

/-- Items under their own identifiers. -/
def filed (id : α → String) (items : List α) : Entered α := items.map fun a => (id a, a)

variable (id : α → String)

theorem values_filed (items : List α) : (filed id items).map Prod.snd = items := by
  rw [filed, List.map_map]
  exact List.map_id items

theorem lookup_filed (items : List α) (key : String) :
    (filed id items).lookup key = items.find? (id · == key) := by
  induction items with
  | nil => rfl
  | cons a rest ih =>
    have hsides : (key == id a) = (id a == key) := BEq.comm
    rw [filed] at ih
    simp only [filed, List.map_cons, List.lookup_cons, List.find?_cons, hsides, ih]

theorem enter_of_absent {items : List α} {a : α} (h : id a ∉ items.map id) :
    enter (id a) a (filed id items) = filed id (items ++ [a]) := by
  induction items with
  | nil => rfl
  | cons b rest ih =>
    rw [List.map_cons, List.mem_cons, not_or] at h
    have hkey : (id b == id a) = false := by simpa using Ne.symm h.1
    have ih := ih h.2
    simp only [filed, List.map_cons, List.cons_append, enter, hkey] at ih ⊢
    simpa using ih

/-- An item that was there is the only one of its identifier, so that no other place changes. -/
theorem enter_of_present {items : List α} {a : α} (hnodup : (items.map id).Nodup)
    (h : id a ∈ items.map id) :
    enter (id a) a (filed id items) = filed id (Distinct.put id a (id a) items) := by
  induction items with
  | nil => cases h
  | cons b rest ih =>
    rw [List.map_cons, List.nodup_cons] at hnodup
    by_cases hb : id b = id a
    · have hrest : Distinct.put id a (id a) rest = rest := by
        refine (List.map_congr_left fun c hc => ?_).trans (List.map_id rest)
        have hne : id c ≠ id a := fun he => hnodup.1 (hb ▸ he ▸ List.mem_map_of_mem hc)
        simp [hne]
      have hput : Distinct.put id a (id a) (b :: rest) = a :: rest := by
        rw [Distinct.put, List.map_cons, ← Distinct.put, hrest, hb, beq_self_eq_true, if_pos rfl]
      rw [hput]
      simp [filed, enter, hb]
    · have hmem : id a ∈ rest.map id := by
        rcases List.mem_cons.1 h with he | hmem
        · exact absurd he.symm hb
        · exact hmem
      have ih := ih hnodup.2 hmem
      have hkey : (id b == id a) = false := by simpa using hb
      simp only [filed, Distinct.put, List.map_cons, enter, hkey] at ih ⊢
      simpa using ih

/-- Entries made one after the other under keys that are all new. -/
theorem foldl_enter (before : List α) {items : List α} (h : ((before ++ items).map id).Nodup) :
    items.foldl (fun rows a => enter (id a) a rows) (filed id before) =
      filed id (before ++ items) := by
  induction items generalizing before with
  | nil => simp
  | cons a rest ih =>
    have hnew : id a ∉ before.map id := by
      rw [List.map_append, List.nodup_append] at h
      exact fun hmem => h.2.2 _ hmem _ List.mem_cons_self rfl
    rw [List.append_cons] at h ⊢
    rw [List.foldl_cons, enter_of_absent id hnew, ih _ h]

/-- Entries made anew in their order, one of them replaced by an item under its own key. -/
theorem foldl_replace {items : List α} {a : α} {old : String}
    (h : ((Distinct.put id a old items).map id).Nodup) :
    (filed id items).foldl (fun rows row =>
        if row.1 == old then enter (id a) a rows else enter row.1 row.2 rows) [] =
      filed id (Distinct.put id a old items) := by
  have hfold : (Distinct.put id a old items).foldl (fun rows b => enter (id b) b rows) [] =
      filed id (Distinct.put id a old items) := foldl_enter id [] h
  rw [← hfold, filed, Distinct.put, List.foldl_map, List.foldl_map]
  congr 1
  funext rows b
  dsimp only
  split <;> rfl

theorem filter_filed (items : List α) (test : String → Bool) :
    (filed id items).filter (fun row => test row.1) =
      filed id (items.filter fun a => test (id a)) :=
  List.filter_map

end Entered

/-! ## Ledgers -/

/-- Nodes and edges under keys. -/
structure Ledger where
  nodes : Entered Node
  edges : Entered Edge

namespace Ledger
open Entered

/-- The nodes and edges of a graph, each under its own identifier. -/
def ofGraph (g : Graph) : Ledger := ⟨filed Node.id g.nodes, filed Edge.id g.edges⟩

/-- Changes the node under a key, if there is one that can be changed. -/
def changeNode (l : Ledger) (key : String) (change : Node → Option Node) : Ledger :=
  match (l.nodes.lookup key).bind change with
  | some n => { l with nodes := l.nodes.enter key n }
  | none => l

/-- What a change makes of the entries when nothing about it is checked. -/
def edit (l : Ledger) : Change → Ledger
  | .addNode n => { l with nodes := l.nodes.enter n.id n }
  | .removeNode id =>
    { nodes := l.nodes.filter fun row => row.1 != id
      edges := l.edges.filter fun row => !row.2.touches id }
  | .updateData id changes => l.changeNode id fun n => (n.withData changes).toOption
  | .moveNode id x y => l.changeNode id fun n => (n.movedTo x y).value?
  | .addEdge e => { l with edges := l.edges.enter e.id e }
  | .removeEdge id => { l with edges := l.edges.filter fun row => row.1 != id }
  | .removeEdges ids => { l with edges := l.edges.filter fun row => !ids.contains row.1 }
  | .replaceEdge id e =>
    { l with
      edges := l.edges.foldl
        (fun rows row => if row.1 == id then rows.enter e.id e else rows.enter row.1 row.2) [] }

variable {g h : Graph} {c : Change}

theorem changeNode_ofGraph {id : String} {n m : Node} {change : Node → Option Node}
    (hn : g.node? id = some n) (hm : change n = some m) (hid : m.id = n.id) :
    (ofGraph g).changeNode id change = ofGraph (g.putNode m) := by
  obtain ⟨hmem, rfl⟩ := Graph.node?_eq_some_iff.1 hn
  have hlookup : (ofGraph g).nodes.lookup n.id = some n := (lookup_filed Node.id _ _).trans hn
  have hpresent : m.id ∈ g.nodes.map Node.id := hid ▸ Graph.id_mem_nodeIds hmem
  have henter := enter_of_present Node.id g.nodes_distinct hpresent
  rw [changeNode, hlookup, Option.bind_some, hm, ← hid]
  exact congrArg (Ledger.mk · _) henter

/-- An edge of a graph touches no node that is missing, so that removing one leaves it alone. -/
theorem edit_removeNode (g : Graph) (id : String) :
    (ofGraph g).edit (.removeNode id) = ofGraph (g.removeNode id) := by
  have hedges : (filed Edge.id g.edges).filter (fun row => !row.2.touches id) =
      filed Edge.id (g.edges.filter fun e => !e.touches id) := List.filter_map
  have hedit : (ofGraph g).edit (.removeNode id) = ⟨filed Node.id (g.nodes.filter (·.id != id)),
      filed Edge.id (g.edges.filter fun e => !e.touches id)⟩ :=
    congrArg₂ Ledger.mk (filter_filed Node.id g.nodes (· != id)) hedges
  rw [hedit, Graph.removeNode]
  split
  · rfl
  · rename_i hmissing
    have habsent : id ∉ g.nodeIds := mt Graph.hasNode_iff.2 hmissing
    have hnodes : g.nodes.filter (·.id != id) = g.nodes := by
      refine List.filter_eq_self.2 fun n hn => bne_iff_ne.2 ?_
      rintro rfl
      exact habsent (Graph.id_mem_nodeIds hn)
    have hkept : (g.edges.filter fun e => !e.touches id) = g.edges := by
      refine List.filter_eq_self.2 fun e he => ?_
      obtain ⟨hsource, htarget⟩ := g.anchored e he
      rw [Bool.not_eq_true', ← Bool.not_eq_true, Edge.touches_iff]
      rintro (rfl | rfl)
      · exact habsent hsource
      · exact habsent htarget
    rw [hnodes, hkept]
    rfl

theorem edit_of_apply (hok : c.apply g = .ok h) : (ofGraph g).edit c = ofGraph h := by
  cases c with
  | addNode n =>
    obtain ⟨hid, hn, he⟩ := Graph.addNode_eq_ok_iff.1 (Graph.orFault_eq_ok_iff.1 hok)
    rw [ofGraph, ofGraph, hn, he]
    exact congrArg (Ledger.mk · _) (enter_of_absent Node.id hid)
  | removeNode id =>
    cases hok
    exact edit_removeNode g id
  | updateData id changes =>
    obtain ⟨n, m, hn, hm, rfl⟩ := Graph.updateData_eq_ok_iff.1 (Graph.orFault_eq_ok_iff.1 hok)
    exact changeNode_ofGraph hn (by rw [hm]; rfl) (Node.id_of_withData hm).1
  | moveNode id x y =>
    obtain ⟨n, m, hn, hm, rfl⟩ := Graph.moveNode_eq_ok_iff.1 hok
    have hm := Checked.orFail_eq_ok_iff.1 hm
    exact changeNode_ofGraph hn (by rw [hm]; rfl) (Node.id_of_movedTo hm)
  | addEdge e =>
    obtain ⟨hid, -, hn, he⟩ := Graph.addEdge_eq_ok_iff.1 (Graph.orFault_eq_ok_iff.1 hok)
    rw [ofGraph, ofGraph, hn, he]
    exact congrArg (Ledger.mk _) (enter_of_absent Edge.id hid)
  | removeEdge id =>
    cases hok
    exact congrArg (Ledger.mk _) (filter_filed Edge.id g.edges (· != id))
  | removeEdges ids =>
    cases hok
    exact congrArg (Ledger.mk _) (filter_filed Edge.id g.edges fun id => !ids.contains id)
  | replaceEdge id e =>
    obtain ⟨-, -, -, hn, he⟩ := Graph.replaceEdge_eq_ok_iff.1 (Graph.orFault_eq_ok_iff.1 hok)
    have hdistinct := h.edges_distinct
    rw [he] at hdistinct
    rw [ofGraph, ofGraph, hn, he]
    exact congrArg (Ledger.mk _) (foldl_replace Edge.id hdistinct)

end Ledger

/-! ## Runs of changes -/

/-- The graph after changes that all succeed. -/
def Change.applyAll (g : Graph) (changes : List Change) : Except Failure Graph :=
  changes.foldlM Change.apply g

theorem Ledger.edits_of_applyAll {g h : Graph} {changes : List Change}
    (hok : Change.applyAll g changes = .ok h) :
    changes.foldl Ledger.edit (.ofGraph g) = .ofGraph h := by
  induction changes generalizing g with
  | nil =>
    cases hok
    rfl
  | cons c rest ih =>
    obtain ⟨k, hk, hrest⟩ := Attempt.foldlM_cons_eq_ok_iff.1 hok
    rw [List.foldl_cons, Ledger.edit_of_apply hk]
    exact ih hrest

/-! ## Indexes -/

namespace Rows
variable {κ : Type} [BEq κ] [LawfulBEq κ]

/-- The identifiers of all rows, each with the key of its row. -/
def pairs (rows : Rows κ) : List (κ × String) :=
  rows.flatMap fun row => row.2.map fun id => (row.1, id)

theorem pairs_add (rows : Rows κ) (key : κ) (id : String) :
    (add key id rows).pairs.Perm (rows.pairs ++ [(key, id)]) := by
  induction rows with
  | nil => exact .refl _
  | cons row rest ih =>
    obtain ⟨k, ids⟩ := row
    by_cases hk : k = key
    · subst hk
      have hadd : add k id ((k, ids) :: rest) = (k, ids ++ [id]) :: rest := by simp [add]
      simp only [hadd, pairs, List.flatMap_cons, List.map_append, List.append_assoc]
      exact (List.perm_append_comm).append_left _
    · have hadd : add key id ((k, ids) :: rest) = (k, ids) :: add key id rest := by
        simp [add, hk]
      simp only [hadd, pairs, List.flatMap_cons, List.append_assoc] at ih ⊢
      exact ih.append_left _

end Rows

/-- The handles of an edge, each with its identifier. -/
def Edge.entriesOnHandles (e : Edge) : List (HandleKey × String) :=
  [(e.sourceKey, e.id), (e.targetKey, e.id)]

theorem Index.pairs_usage_foldl (edges : List Edge) (index : Index) :
    (edges.foldl add index).usage.pairs.Perm
      (index.usage.pairs ++ edges.flatMap Edge.entriesOnHandles) := by
  induction edges generalizing index with
  | nil => rw [List.flatMap_nil, List.append_nil, List.foldl_nil]
  | cons e rest ih =>
    have hone : (index.add e).usage.pairs.Perm (index.usage.pairs ++ e.entriesOnHandles) := by
      refine (Rows.pairs_add _ _ _).trans ?_
      have hsource := (Rows.pairs_add index.usage e.sourceKey e.id).append_right
        [(e.targetKey, e.id)]
      rwa [List.append_assoc] at hsource
    have hall := (ih (index.add e)).trans (hone.append_right _)
    rwa [List.append_assoc] at hall

namespace Graph

/-- The indexes of a graph say what a scan of its edges says: each query gives every identifier of
its row, and the rows under handles list each edge once where it leaves and once where it enters. -/
structure Scanned (g : Graph) : Prop where
  outgoing : ∀ node, g.outgoing node = g.edges.filter fun e => e.source == node
  incoming : ∀ node, g.incoming node = g.edges.filter fun e => e.target == node
  edgesAt : ∀ key, g.edgesAt key =
    g.edges.filter fun e => e.sourceKey == key || e.targetKey == key
  rows : ∀ node key, g.index.outgoing.row node = (g.outgoing node).map Edge.id ∧
    g.index.incoming.row node = (g.incoming node).map Edge.id ∧
      g.index.usage.row key = (g.edgesAt key).map Edge.id
  usage : g.usage.pairs.Perm (g.edges.flatMap fun e => [(e.sourceKey, e.id), (e.targetKey, e.id)])
  keys : (g.usage.map Prod.fst).Nodup

theorem scanned (g : Graph) : g.Scanned where
  outgoing := g.outgoing_eq
  incoming := g.incoming_eq
  edgesAt := g.edgesAt_eq
  rows node key := by
    rw [outgoing_eq, incoming_eq, edgesAt_eq]
    exact ⟨g.row_outgoing node, g.row_incoming node, g.row_usage key⟩
  usage := by
    rw [Graph.usage, g.indexed]
    exact Index.pairs_usage_foldl g.edges {}
  keys := g.nodup_usage

theorem ledger_after {g h : Graph} {changes : List Change}
    (hok : Change.applyAll g changes = .ok h) :
    let l := changes.foldl Ledger.edit (.ofGraph g)
    l.nodes = h.nodes.map (fun n => (n.id, n)) ∧ l.edges = h.edges.map (fun e => (e.id, e)) ∧
      (∀ id, h.node? id = l.nodes.lookup id ∧ h.edge? id = l.edges.lookup id) ∧
      build (l.nodes.map Prod.snd) (l.edges.map Prod.snd) = .ok h ∧
      h.index = Index.ofEdges (l.edges.map Prod.snd) ∧ h.Scanned := by
  intro l
  have hl : l = .ofGraph h := Ledger.edits_of_applyAll hok
  have hnodes : l.nodes.map Prod.snd = h.nodes := hl ▸ Entered.values_filed Node.id h.nodes
  have hedges : l.edges.map Prod.snd = h.edges := hl ▸ Entered.values_filed Edge.id h.edges
  refine ⟨by rw [hl]; rfl, by rw [hl]; rfl, fun id => ?_, ?_, ?_, h.scanned⟩
  · rw [hl]
    exact ⟨(Entered.lookup_filed Node.id h.nodes id).symm,
      (Entered.lookup_filed Edge.id h.edges id).symm⟩
  · rw [hnodes, hedges, build_parts]
  · rw [hedges, h.indexed]

/-- An edge of another identifier on a handle of its own. -/
def detour : Edge := .plain "6" ⟨"a", some "out", "b", some "in"⟩ (by decide)

/-- An edge of the tangle is replaced, and a node goes with its edges. -/
def sampleChanges : List Change := [.replaceEdge "3" detour, .removeNode "c"]

theorem ledger_after_sample : ∃ h, Change.applyAll tangle sampleChanges = .ok h ∧
    h.edgeIds = ["2", "6"] ∧
      (sampleChanges.foldl Ledger.edit (.ofGraph tangle)).edges = h.edges.map (fun e => (e.id, e)) ∧
      build ((sampleChanges.foldl Ledger.edit (.ofGraph tangle)).nodes.map Prod.snd)
        ((sampleChanges.foldl Ledger.edit (.ofGraph tangle)).edges.map Prod.snd) = .ok h ∧
      h.Scanned := by
  have hok : Change.applyAll tangle sampleChanges = .ok _ := rfl
  obtain ⟨-, hedges, -, hbuilt, -, hscanned⟩ := ledger_after hok
  exact ⟨_, hok, rfl, hedges, hbuilt, hscanned⟩

end Graph
end WorkflowCanvas
