import Mathlib.Data.List.Chain
import WorkflowCanvas.Proofs.Graph.Review

/-! Graphs that are one line: a start, step groups and an end in a row, with one edge from each to
the next and no other node or edge. Main statement: a review passes exactly when the graph is one
line. One way, a path from the start to the end takes in every node, for whatever it left out
would lie on a cycle. The other way, positions in the row grow along every edge. -/
namespace WorkflowCanvas
open Relation
set_option autoImplicit false

/-! ## Neighbours in a row -/

/-- Each item of a row with the next. -/
def neighbours {α : Type} : List α → List (α × α)
  | [] => []
  | [_] => []
  | a :: b :: rest => (a, b) :: neighbours (b :: rest)

section Neighbours
variable {α : Type} {row : List α} {a b : α}

theorem map_fst_neighbours (row : List α) : (neighbours row).map Prod.fst = row.dropLast := by
  fun_induction neighbours row with
  | case1 => rfl
  | case2 a => rfl
  | case3 a b rest ih => rw [List.map_cons, ih, List.dropLast_cons_cons]

theorem map_snd_neighbours (row : List α) : (neighbours row).map Prod.snd = row.tail := by
  fun_induction neighbours row with
  | case1 => rfl
  | case2 a => rfl
  | case3 a b rest ih => rw [List.map_cons, ih, List.tail_cons, List.tail_cons]

theorem neighbours_map {β : Type} (f : α → β) (row : List α) :
    neighbours (row.map f) = (neighbours row).map (Prod.map f f) := by
  fun_induction neighbours row with
  | case1 => rfl
  | case2 a => rfl
  | case3 a b rest ih =>
    rw [List.map_cons] at ih
    rw [List.map_cons, List.map_cons, neighbours, ih, List.map_cons, Prod.map_apply]

theorem isChain_iff_neighbours {R : α → α → Prop} :
    row.IsChain R ↔ ∀ p ∈ neighbours row, R p.1 p.2 := by
  fun_induction neighbours row with
  | case1 => simp
  | case2 a => simp
  | case3 a b rest ih => rw [List.isChain_cons_cons, ih, List.forall_mem_cons]

theorem mem_of_mem_neighbours (h : (a, b) ∈ neighbours row) : a ∈ row ∧ b ∈ row := by
  have ha : a ∈ (neighbours row).map Prod.fst := List.mem_map_of_mem (f := Prod.fst) h
  have hb : b ∈ (neighbours row).map Prod.snd := List.mem_map_of_mem (f := Prod.snd) h
  rw [map_fst_neighbours] at ha
  rw [map_snd_neighbours] at hb
  exact ⟨List.dropLast_subset row ha, List.mem_of_mem_tail hb⟩

theorem nodup_neighbours (h : row.Nodup) : (neighbours row).Nodup := by
  refine .of_map Prod.fst ?_
  rw [map_fst_neighbours]
  exact h.sublist (List.dropLast_sublist row)

theorem exists_next (init : List α) (last : α) (h : a ∈ init ++ [last]) (hne : a ≠ last) :
    ∃ b, (a, b) ∈ neighbours (init ++ [last]) := by
  have hfirsts : (neighbours (init ++ [last])).map Prod.fst = init := by
    rw [map_fst_neighbours, List.dropLast_concat]
  have ha : a ∈ init := by simpa [hne] using h
  rw [← hfirsts, List.mem_map] at ha
  obtain ⟨⟨x, b⟩, hp, rfl⟩ := ha
  exact ⟨b, hp⟩

theorem idxOf_lt_of_mem_neighbours [DecidableEq α] (hn : row.Nodup)
    (h : (a, b) ∈ neighbours row) : row.idxOf a < row.idxOf b := by
  fun_induction neighbours row with
  | case1 => cases h
  | case2 x => cases h
  | case3 x y rest ih =>
    rw [List.nodup_cons] at hn
    rcases List.mem_cons.1 h with heq | h
    · cases heq
      have hne : a ≠ b := fun he => hn.1 (he ▸ List.mem_cons_self)
      rw [List.idxOf_cons_self, List.idxOf_cons_ne _ hne]
      exact Nat.succ_pos _
    · have hmem := mem_of_mem_neighbours h
      have ha : x ≠ a := fun he => hn.1 (he ▸ hmem.1)
      have hb : x ≠ b := fun he => hn.1 (he ▸ hmem.2)
      rw [List.idxOf_cons_ne _ ha, List.idxOf_cons_ne _ hb]
      exact Nat.succ_lt_succ (ih hn.2 h)

end Neighbours

namespace Graph
variable {g : Graph} {start finish : Node} {groups : List Node}

/-- A start, step groups and an end in a row. -/
def row (start : Node) (groups : List Node) (finish : Node) : List Node :=
  start :: (groups ++ [finish])

/-- A graph whose nodes are a row, with an edge from each node to the next and no other. -/
structure Line (g : Graph) (start : Node) (groups : List Node) (finish : Node) : Prop where
  starts : start.kind = .start
  steps : ∀ n ∈ groups, n.kind = .stepGroup
  finishes : finish.kind = .finish
  covers : g.nodes.Perm (row start groups finish)
  links : (g.edges.map fun e => (e.source, e.target)).Perm
    (neighbours ((row start groups finish).map Node.id))

/-! ## A line passes its review -/

namespace Line

theorem mem_nodes_iff (h : g.Line start groups finish) {n : Node} :
    n ∈ g.nodes ↔ n = start ∨ n ∈ groups ∨ n = finish := by
  rw [h.covers.mem_iff]
  simp [row]

theorem nodup_ids (h : g.Line start groups finish) :
    ((row start groups finish).map Node.id).Nodup :=
  (h.covers.map Node.id).nodup_iff.1 g.nodes_distinct

theorem joins_iff (h : g.Line start groups finish) {a b : String} :
    g.Joins a b ↔ (a, b) ∈ neighbours ((row start groups finish).map Node.id) := by
  rw [← h.links.mem_iff]
  simp [Joins]

theorem isChain (h : g.Line start groups finish) :
    ((row start groups finish).map Node.id).IsChain g.Joins :=
  isChain_iff_neighbours.2 fun _ hp => h.joins_iff.2 hp

theorem edges_ne_nil (h : g.Line start groups finish) : g.edges ≠ [] := by
  intro hnil
  have hfirsts := h.links.map Prod.fst
  rw [hnil, map_fst_neighbours, row, ← List.cons_append, List.map_append, List.map_singleton,
    List.dropLast_concat] at hfirsts
  exact absurd hfirsts.symm.eq_nil (List.cons_ne_nil _ _)

theorem unbranched (h : g.Line start groups finish) : g.Unbranched := by
  have hn := h.nodup_ids
  rw [unbranched_iff_nodup]
  constructor
  · have hp := h.links.map Prod.fst
    rw [map_fst_neighbours, List.map_map] at hp
    exact hp.nodup_iff.2 (hn.sublist (List.dropLast_sublist _))
  · have hp := h.links.map Prod.snd
    rw [map_snd_neighbours, List.map_map] at hp
    exact hp.nodup_iff.2 (hn.sublist (List.tail_sublist _))

theorem acyclic (h : g.Line start groups finish) (n : String) : ¬ TransGen g.Joins n n := by
  have hlt : ∀ a b, TransGen g.Joins a b →
      ((row start groups finish).map Node.id).idxOf a <
        ((row start groups finish).map Node.id).idxOf b := by
    intro a b hp
    induction hp with
    | single hj => exact idxOf_lt_of_mem_neighbours h.nodup_ids (h.joins_iff.1 hj)
    | tail _ hj ih =>
      exact ih.trans (idxOf_lt_of_mem_neighbours h.nodup_ids (h.joins_iff.1 hj))
  intro hp
  exact Nat.lt_irrefl _ (hlt n n hp)

theorem nodesOfKind_perm (h : g.Line start groups finish) (kind : NodeKind)
    (hk : kind ≠ .stepGroup) :
    (g.nodesOfKind kind).Perm ([start, finish].filter (·.kind == kind)) := by
  have hp := h.covers.filter (·.kind == kind)
  have hgroups : groups.filter (·.kind == kind) = [] := by
    rw [List.filter_eq_nil_iff]
    intro n hn
    simpa [h.steps n hn] using hk.symm
  rw [row, List.filter_cons, List.filter_append, hgroups, List.nil_append] at hp
  rwa [List.filter_cons]

/-- Of two nodes in the row a path leads from the earlier to the later. -/
theorem pairwise_path (h : g.Line start groups finish) :
    ((row start groups finish).map Node.id).Pairwise (ReflTransGen g.Joins) :=
  List.isChain_iff_pairwise.1 (h.isChain.imp fun _ _ hj => .single hj)

theorem path_from_start (h : g.Line start groups finish) {n : Node} (hn : n ∈ g.nodes) :
    ReflTransGen g.Joins start.id n.id := by
  have hp := h.pairwise_path
  rw [row, List.map_cons, List.pairwise_cons] at hp
  rcases h.mem_nodes_iff.1 hn with rfl | hrest
  · exact .refl
  · exact hp.1 n.id (List.mem_map_of_mem (by simpa using hrest))

theorem path_to_finish (h : g.Line start groups finish) {n : Node} (hn : n ∈ g.nodes) :
    ReflTransGen g.Joins n.id finish.id := by
  have hp := h.pairwise_path
  rw [row, ← List.cons_append, List.map_append, List.pairwise_append] at hp
  rcases h.mem_nodes_iff.1 hn with hstart | hn | hfinish
  · exact hp.2.2 n.id (List.mem_map_of_mem (by simp [hstart])) finish.id (by simp)
  · exact hp.2.2 n.id (List.mem_map_of_mem (by simp [hn])) finish.id (by simp)
  · rw [hfinish]

theorem organized (h : g.Line start groups finish) : ∀ n ∈ g.nodes, n.kind ≠ .agent := by
  intro n hn
  rcases h.mem_nodes_iff.1 hn with rfl | hn | rfl
  · simp [h.starts]
  · simp [h.steps n hn]
  · simp [h.finishes]

theorem sound (h : g.Line start groups finish) : g.Sound start finish where
  starts := by simpa [h.starts, h.finishes] using h.nodesOfKind_perm .start (by decide)
  finishes := by simpa [h.starts, h.finishes] using h.nodesOfKind_perm .finish (by decide)
  joined := h.path_from_start (h.mem_nodes_iff.2 (.inr (.inr rfl)))
  between := fun _ hn _ => ⟨h.path_from_start hn, h.path_to_finish hn⟩
  acyclic := h.acyclic
  unbranched := h.unbranched
  organized := h.organized

end Line

/-! ## A graph that passes its review is a line -/

namespace Sound

theorem start_mem (h : g.Sound start finish) : start ∈ g.nodes ∧ start.kind = .start :=
  mem_of_nodesOfKind h.starts

theorem finish_mem (h : g.Sound start finish) : finish ∈ g.nodes ∧ finish.kind = .finish :=
  mem_of_nodesOfKind h.finishes

theorem eq_start (h : g.Sound start finish) {n : Node} (hn : n ∈ g.nodes)
    (hk : n.kind = .start) : n = start := by
  have hm : n ∈ g.nodesOfKind .start := by simp [nodesOfKind, hn, hk]
  simpa [h.starts] using hm

theorem eq_finish (h : g.Sound start finish) {n : Node} (hn : n ∈ g.nodes)
    (hk : n.kind = .finish) : n = finish := by
  have hm : n ∈ g.nodesOfKind .finish := by simp [nodesOfKind, hn, hk]
  simpa [h.finishes] using hm

theorem start_ne_finish (h : g.Sound start finish) : start.id ≠ finish.id := by
  intro he
  have hkinds := h.start_mem.2.symm.trans
    (congrArg Node.kind (node_eq_of_id_eq h.start_mem.1 h.finish_mem.1 he))
  rw [h.finish_mem.2] at hkinds
  cases hkinds

theorem eq_of_joins (h : g.Sound start finish) {a b c : String} (hb : g.Joins a b)
    (hc : g.Joins a c) : b = c := by
  obtain ⟨e, he, hes, rfl⟩ := hb
  obtain ⟨f, hf, hfs, rfl⟩ := hc
  rw [h.unbranched e he f hf (.inl (hes.trans hfs.symm))]

theorem nodup_of_isChain (h : g.Sound start finish) {ids : List String}
    (hc : ids.IsChain g.Joins) : ids.Nodup := by
  have hp : ids.Pairwise (TransGen g.Joins) :=
    List.isChain_iff_pairwise.1 (hc.imp fun _ _ hj => .single hj)
  refine hp.imp ?_
  rintro a b hab rfl
  exact h.acyclic a hab

/-- The identifiers on a path from the start to the end. -/
theorem exists_path (h : g.Sound start finish) :
    ∃ mid, (start.id :: (mid ++ [finish.id])).IsChain g.Joins := by
  obtain ⟨rest, hc, hlast⟩ := List.exists_isChain_cons_of_relationReflTransGen h.joined
  rcases List.eq_nil_or_concat rest with rfl | ⟨mid, last, rfl⟩
  · exact absurd hlast h.start_ne_finish
  · have hl : last = finish.id := by simpa using hlast
    rw [List.concat_eq_append, hl] at hc
    exact ⟨mid, hc⟩

variable {mid : List String}

/-- What is reached from the start is on the path or beyond the end. -/
theorem mem_path_or_beyond (h : g.Sound start finish)
    (hc : (start.id :: (mid ++ [finish.id])).IsChain g.Joins) {a : String}
    (ha : ReflTransGen g.Joins start.id a) :
    a ∈ start.id :: (mid ++ [finish.id]) ∨ TransGen g.Joins finish.id a := by
  induction ha with
  | refl => exact .inl List.mem_cons_self
  | @tail b c _ hbc ih =>
    rcases ih with hb | hb
    · by_cases hbf : b = finish.id
      · exact .inr (.single (hbf ▸ hbc))
      · obtain ⟨d, hd⟩ := exists_next (start.id :: mid) finish.id hb hbf
        have hbd : g.Joins b d := isChain_iff_neighbours.1 hc (b, d) hd
        rw [h.eq_of_joins hbc hbd]
        exact .inl (mem_of_mem_neighbours hd).2
    · exact .inr (hb.tail hbc)

/-- Beyond the end nothing leads back to it. -/
theorem mem_path (h : g.Sound start finish)
    (hc : (start.id :: (mid ++ [finish.id])).IsChain g.Joins) {n : Node} (hn : n ∈ g.nodes) :
    n.id ∈ start.id :: (mid ++ [finish.id]) := by
  cases hk : n.kind with
  | start =>
    rw [h.eq_start hn hk]
    exact List.mem_cons_self
  | finish =>
    rw [h.eq_finish hn hk]
    simp
  | agent => exact absurd hk (h.organized n hn)
  | stepGroup =>
    obtain ⟨hfrom, hto⟩ := h.between n hn hk
    rcases h.mem_path_or_beyond hc hfrom with hm | hbeyond
    · exact hm
    · exact absurd (hbeyond.trans_left hto) (h.acyclic finish.id)

theorem path_to_finish_of_mem (h : g.Sound start finish) {n : Node} (hn : n ∈ g.nodes) :
    ReflTransGen g.Joins n.id finish.id := by
  cases hk : n.kind with
  | start =>
    rw [h.eq_start hn hk]
    exact h.joined
  | finish => rw [h.eq_finish hn hk]
  | agent => exact absurd hk (h.organized n hn)
  | stepGroup => exact (h.between n hn hk).2

theorem joins_iff_neighbours (h : g.Sound start finish)
    (hc : (start.id :: (mid ++ [finish.id])).IsChain g.Joins) {a b : String} :
    g.Joins a b ↔ (a, b) ∈ neighbours (start.id :: (mid ++ [finish.id])) := by
  constructor
  · intro hj
    obtain ⟨n, hn, rfl⟩ := exists_of_mem_nodeIds hj.source_mem
    obtain ⟨m, hm, rfl⟩ := exists_of_mem_nodeIds hj.target_mem
    have hne : n.id ≠ finish.id := by
      intro he
      rw [he] at hj
      exact h.acyclic finish.id (.head' hj (h.path_to_finish_of_mem hm))
    obtain ⟨c, hnext⟩ := exists_next (start.id :: mid) finish.id (h.mem_path hc hn) hne
    rw [h.eq_of_joins hj (isChain_iff_neighbours.1 hc (n.id, c) hnext)]
    exact hnext
  · exact fun hp => isChain_iff_neighbours.1 hc (a, b) hp

theorem links_perm (h : g.Sound start finish)
    (hc : (start.id :: (mid ++ [finish.id])).IsChain g.Joins) :
    (g.edges.map fun e => (e.source, e.target)).Perm
      (neighbours (start.id :: (mid ++ [finish.id]))) := by
  have hleft : (g.edges.map fun e => (e.source, e.target)).Nodup := by
    refine List.Nodup.map_on (fun e he f hf heq => ?_) g.nodup_edges
    exact h.unbranched e he f hf (.inl (congrArg Prod.fst heq))
  have hright := nodup_neighbours (h.nodup_of_isChain hc)
  rw [List.perm_ext_iff_of_nodup hleft hright]
  rintro ⟨a, b⟩
  rw [← h.joins_iff_neighbours hc]
  simp [Joins]

theorem exists_nodes {ids : List String} (h : ∀ a ∈ ids, a ∈ g.nodeIds) :
    ∃ nodes : List Node, nodes.map Node.id = ids ∧ ∀ n ∈ nodes, n ∈ g.nodes := by
  induction ids with
  | nil => exact ⟨[], rfl, by simp⟩
  | cons a rest ih =>
    obtain ⟨n, hn, rfl⟩ := exists_of_mem_nodeIds (h a List.mem_cons_self)
    obtain ⟨nodes, rfl, hnodes⟩ := ih fun b hb => h b (List.mem_cons_of_mem _ hb)
    exact ⟨n :: nodes, rfl, List.forall_mem_cons.2 ⟨hn, hnodes⟩⟩

theorem exists_line (h : g.Sound start finish) : ∃ groups, g.Line start groups finish := by
  obtain ⟨mid, hc⟩ := h.exists_path
  have hmid : ∀ a ∈ mid, a ∈ g.nodeIds ∧ a ≠ start.id ∧ a ≠ finish.id := by
    intro a ha
    have hnodup := h.nodup_of_isChain hc
    rw [List.nodup_cons, List.nodup_append] at hnodup
    have hne : a ≠ finish.id := hnodup.2.2.2 a ha finish.id (by simp)
    obtain ⟨b, hb⟩ := exists_next (start.id :: mid) finish.id (by simp [ha]) hne
    refine ⟨((h.joins_iff_neighbours hc).2 hb).source_mem, ?_, hne⟩
    rintro rfl
    exact hnodup.1 (List.mem_append_left _ ha)
  obtain ⟨groups, rfl, hgroups⟩ := exists_nodes fun a ha => (hmid a ha).1
  have hids : start.id :: (groups.map Node.id ++ [finish.id]) =
      (row start groups finish).map Node.id := by simp [row]
  have hrow : ∀ n ∈ row start groups finish, n ∈ g.nodes := by
    intro n hn
    simp only [row, List.mem_cons, List.mem_append, List.not_mem_nil, or_false] at hn
    rcases hn with rfl | hn | rfl
    · exact h.start_mem.1
    · exact hgroups n hn
    · exact h.finish_mem.1
  refine ⟨groups, h.start_mem.2, fun n hn => ?_, h.finish_mem.2, ?_, hids ▸ h.links_perm hc⟩
  · obtain ⟨-, hs, hf⟩ := hmid n.id (List.mem_map_of_mem hn)
    cases hk : n.kind with
    | start => exact absurd (congrArg Node.id (h.eq_start (hgroups n hn) hk)) hs
    | finish => exact absurd (congrArg Node.id (h.eq_finish (hgroups n hn) hk)) hf
    | agent => exact absurd hk (h.organized n (hgroups n hn))
    | stepGroup => rfl
  · have hnodup : (row start groups finish).Nodup :=
      .of_map Node.id (hids ▸ h.nodup_of_isChain hc)
    rw [List.perm_ext_iff_of_nodup g.nodup_nodes hnodup]
    intro n
    constructor
    · intro hn
      have hm := h.mem_path hc hn
      rw [hids] at hm
      obtain ⟨m, hm, hid⟩ := List.mem_map.1 hm
      rwa [← node_eq_of_id_eq (hrow m hm) hn hid]
    · exact hrow n

end Sound

theorem passes_iff_line :
    g.review.passes = true ↔ ∃ start groups finish, g.Line start groups finish := by
  rw [passes_iff_sound]
  constructor
  · rintro ⟨start, finish, h⟩
    obtain ⟨groups, hl⟩ := h.exists_line
    exact ⟨start, groups, finish, hl⟩
  · rintro ⟨start, groups, finish, h⟩
    exact ⟨start, finish, h.sound⟩

end Graph
end WorkflowCanvas
