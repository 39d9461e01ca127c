import Mathlib.Algebra.Group.Nat.Defs
import Mathlib.Data.List.Perm.Subperm
import Mathlib.Data.Set.Function
import Mathlib.Order.Interval.Set.Defs
import WorkflowCanvas.Proofs.Session.Exclusive

/-! Rows that are drawn by hand. A start, step groups and an end are added to an empty canvas and
neighbours are joined, in any order and however often. Main statement: once every node was added
and every pair of neighbours was joined, the canvas holds one edge for each pair, and compiles to
the steps of the row in its order. No joint is ever in the way of another, since no two of them
leave one node or enter one node; so a joint is laid when it is first asked for, and stays. -/
namespace WorkflowCanvas
set_option autoImplicit false

/-! ## Joints -/

/-- Ends that lead from each node of a row to the next, on whatever handles. -/
def Joints (row : List Node) (joints : List Ends) : Prop :=
  joints.map (fun e => (e.source, e.target)) = neighbours (row.map Node.id)

namespace Joints
variable {row : List Node} {joints : List Ends} {e f : Ends}

theorem map_source (h : Joints row joints) :
    joints.map Ends.source = (row.map Node.id).dropLast := by
  rw [← map_fst_neighbours, ← h, List.map_map]
  rfl

theorem map_target (h : Joints row joints) :
    joints.map Ends.target = (row.map Node.id).tail := by
  rw [← map_snd_neighbours, ← h, List.map_map]
  rfl

theorem length_eq (h : Joints row joints) : joints.length = row.length - 1 := by
  have hlength := congrArg List.length h.map_source
  rwa [List.length_map, List.length_dropLast, List.length_map] at hlength

theorem mem_neighbours (h : Joints row joints) (he : e ∈ joints) :
    (e.source, e.target) ∈ neighbours (row.map Node.id) := by
  rw [← h]
  exact List.mem_map_of_mem (f := fun e : Ends => (e.source, e.target)) he

theorem source_ne_target (h : Joints row joints) (hn : (row.map Node.id).Nodup)
    (he : e ∈ joints) : e.source ≠ e.target := by
  intro heq
  have hlt := idxOf_lt_of_mem_neighbours hn (h.mem_neighbours he)
  rw [heq] at hlt
  exact Nat.lt_irrefl _ hlt

/-- No two joints are on one handle, for no two leave one node or enter one node. -/
theorem eq_of_keys (h : Joints row joints) (hn : (row.map Node.id).Nodup) (he : e ∈ joints)
    (hf : f ∈ joints) (hkeys : f.sourceKey = e.sourceKey ∨ f.targetKey = e.targetKey) : f = e := by
  have hsources : (joints.map Ends.source).Nodup := by
    rw [h.map_source]
    exact hn.sublist (List.dropLast_sublist _)
  have htargets : (joints.map Ends.target).Nodup := by
    rw [h.map_target]
    exact hn.sublist (List.tail_sublist _)
  rcases hkeys with hkey | hkey
  · exact List.inj_on_of_nodup_map hsources hf he (congrArg HandleKey.node hkey)
  · exact List.inj_on_of_nodup_map htargets hf he (congrArg HandleKey.node hkey)

theorem nodup (h : Joints row joints) (hn : (row.map Node.id).Nodup) : joints.Nodup := by
  refine .of_map Ends.source ?_
  rw [h.map_source]
  exact hn.sublist (List.dropLast_sublist _)

end Joints

theorem Ends.drop_injective {e f : Ends} (h : e.drop = f.drop) : e = f := by
  obtain ⟨_, _, _, _⟩ := e
  obtain ⟨_, _, _, _⟩ := f
  cases h
  rfl

namespace Graph
variable {g : Graph} {n : Node}

theorem exists_addNode (h : n.id ∉ g.nodeIds) :
    ∃ k, g.addNode n = .ok k ∧ k.nodes = g.nodes ++ [n] ∧ k.edges = g.edges := by
  cases hr : g.addNode n with
  | ok k => exact ⟨k, rfl, (addNode_eq_ok_iff.1 hr).2⟩
  | error fault =>
    rw [addNode, dif_neg h] at hr
    cases hr

theorem addNode_of_taken (h : n.id ∈ g.nodeIds) : g.addNode n = .error (.nodeTaken n.id) := by
  rw [addNode, dif_pos h]

end Graph

namespace Session
variable {σ : Type} {storage : Storage σ} {t : Session} {store : σ} {g : Graph} {n : Node}

/-! ## One request -/

theorem next_addNode (h : t.graph.addNode n = .ok g) :
    (next storage (t, store) (.addNode n)).1 = { t with graph := g } := by
  show (t.edited (Graph.orFault (t.graph.addNode n)) fun _ => .done).2 = _
  rw [h]
  rfl

theorem next_addNode_of_taken (h : n.id ∈ t.graph.nodeIds) :
    (next storage (t, store) (.addNode n)).1 = t := by
  show (t.edited (Graph.orFault (t.graph.addNode n)) fun _ => .done).2 = t
  rw [Graph.addNode_of_taken h]
  rfl

theorem next_connect_of_idle {d : Drop} (hi : t.gesture = .idle)
    (h : t.graph.connect t.settings.connection (t.supply.next Edge.stem) d = .ok g) :
    (next storage (t, store) (.connect d)).1 =
      { t with graph := g,
               supply := t.supply.spentIf (t.graph.resolveConnect t.settings.connection
                 (t.supply.next Edge.stem) d).takesName } := by
  have hr : t.resolution d =
      t.graph.resolveConnect t.settings.connection (t.supply.next Edge.stem) d := by
    rw [resolution, Graph.resolveSignal, hi]
    rfl
  rw [← hr]
  rw [Graph.connect, ← hr] at h
  show (t.connect d).2 = _
  unfold connect
  dsimp only
  rw [h]
  rfl

/-! ## Drawing -/

/-- Requests that draw a row: nodes are added and neighbours are joined in any order and however
often, only that two nodes are there before they are joined. -/
inductive Drawing (row : List Node) (joints : List Ends) : List Request → Prop
  | nil : Drawing row joints []
  | node {done : List Request} {n : Node} (before : Drawing row joints done) (hn : n ∈ row) :
      Drawing row joints (done ++ [.addNode n])
  | joint {done : List Request} {e : Ends} (before : Drawing row joints done) (he : e ∈ joints)
      (hn : ∀ n ∈ row, n.id = e.source ∨ n.id = e.target → .addNode n ∈ done) :
      Drawing row joints (done ++ [.connect e.drop])

namespace Drawing
variable {row : List Node} {joints : List Ends} {done : List Request}

theorem cases_of_mem (h : Drawing row joints done) {r : Request} (hr : r ∈ done) :
    (∃ n ∈ row, r = .addNode n) ∨ ∃ e ∈ joints, r = .connect e.drop := by
  induction h with
  | nil => cases hr
  | node before hn ih =>
    rcases List.mem_append.1 hr with hr | hr
    · exact ih hr
    · exact .inl ⟨_, hn, List.mem_singleton.1 hr⟩
  | joint before he hn ih =>
    rcases List.mem_append.1 hr with hr | hr
    · exact ih hr
    · exact .inr ⟨_, he, List.mem_singleton.1 hr⟩

theorem mem_row (h : Drawing row joints done) (hn : .addNode n ∈ done) : n ∈ row := by
  rcases h.cases_of_mem hn with ⟨m, hm, heq⟩ | ⟨e, -, heq⟩
  · cases heq
    exact hm
  · cases heq

theorem mem_joints (h : Drawing row joints done) {e : Ends} (he : .connect e.drop ∈ done) :
    e ∈ joints := by
  rcases h.cases_of_mem he with ⟨n, -, heq⟩ | ⟨f, hf, heq⟩
  · cases heq
  · rwa [Ends.drop_injective (Request.connect.inj heq)]

end Drawing

/-- What the canvas holds once some requests of a drawing are done: the nodes that were added, one
edge for each two nodes that were joined, and for each edge one identifier out of the supply. -/
structure Drawn (taken : Nat) (done : List Request) (t : Session) : Prop where
  idle : t.gesture = .idle
  nodes : ∀ n, n ∈ t.graph.nodes ↔ .addNode n ∈ done
  joined : ∀ e : Ends, e ∈ t.graph.edges.map Edge.ends ↔ .connect e.drop ∈ done
  single : (t.graph.edges.map Edge.ends).Nodup
  supply : t.supply.taken = taken + t.graph.edges.length
  names : ∀ f ∈ t.graph.edges,
    ∃ count ∈ Set.Ioc taken t.supply.taken, f.id = Supply.spell Edge.stem count

namespace Drawn
variable {row : List Node} {joints : List Ends} {done : List Request} {taken : Nat} {e : Ends}

theorem start (hi : t.gesture = .idle) (hg : t.graph = Graph.empty) :
    Drawn t.supply.taken [] t where
  idle := hi
  nodes := by simp [hg, Graph.empty]
  joined := by simp [hg, Graph.empty]
  single := by simp [hg, Graph.empty]
  supply := by simp [hg, Graph.empty]
  names := by simp [hg, Graph.empty]

/-- A request that was made before adds nothing to what is there. -/
theorem again (h : Drawn taken done t) {r : Request} (hr : r ∈ done) :
    Drawn taken (done ++ [r]) t := by
  have hmem : ∀ q, q ∈ done ++ [r] ↔ q ∈ done := by
    intro q
    rw [List.mem_append, List.mem_singleton]
    constructor
    · rintro (hq | rfl)
      · exact hq
      · exact hr
    · exact .inl
  exact { h with
    nodes := fun n => (h.nodes n).trans (hmem _).symm
    joined := fun e => (h.joined e).trans (hmem _).symm }

theorem addNode (h : Drawn taken done t) (hd : Drawing row joints done)
    (hrow : (row.map Node.id).Nodup) (hn : n ∈ row) :
    Drawn taken (done ++ [.addNode n]) (next storage (t, store) (.addNode n)).1 := by
  by_cases hid : n.id ∈ t.graph.nodeIds
  · obtain ⟨m, hm, hmid⟩ := Graph.exists_of_mem_nodeIds hid
    have hdone := (h.nodes m).1 hm
    obtain rfl : m = n := List.inj_on_of_nodup_map hrow (hd.mem_row hdone) hn hmid
    rw [next_addNode_of_taken hid]
    exact h.again hdone
  · obtain ⟨g, hg, hnodes, hedges⟩ := Graph.exists_addNode hid
    rw [next_addNode hg]
    exact {
      idle := h.idle
      nodes := fun m => by
        rw [hnodes, List.mem_append, List.mem_append, h.nodes, List.mem_singleton,
          List.mem_singleton, Request.addNode.injEq]
      joined := fun e => by
        show e ∈ g.edges.map Edge.ends ↔ _
        rw [hedges, h.joined, List.mem_append, List.mem_singleton]
        simp
      single := by
        show (g.edges.map Edge.ends).Nodup
        rw [hedges]
        exact h.single
      supply := by
        show t.supply.taken = taken + g.edges.length
        rw [hedges]
        exact h.supply
      names := by
        show ∀ f ∈ g.edges, _
        rw [hedges]
        exact h.names }

theorem mem_joints (h : Drawn taken done t) (hd : Drawing row joints done) {f : Edge}
    (hf : f ∈ t.graph.edges) : f.ends ∈ joints :=
  hd.mem_joints ((h.joined f.ends).1 (List.mem_map_of_mem hf))

/-- The edge that is on a handle of a joint is the one that was laid for it. -/
theorem ends_eq_of_meets (h : Drawn taken done t) (hd : Drawing row joints done)
    (hj : Joints row joints) (hrow : (row.map Node.id).Nodup) (he : e ∈ joints) {f : Edge}
    (hf : f ∈ t.graph.edges) (hm : f.meets e = true) : f.ends = e :=
  hj.eq_of_keys hrow he (h.mem_joints hd hf) (Edge.meets_iff.1 hm)

/-- While a joint is missing, there are less edges than joints. -/
theorem length_lt (h : Drawn taken done t) (hd : Drawing row joints done) (he : e ∈ joints)
    (hnew : e ∉ t.graph.edges.map Edge.ends) : t.graph.edges.length < joints.length := by
  have hsub : e :: t.graph.edges.map Edge.ends ⊆ joints := by
    refine List.cons_subset.2 ⟨he, fun k hk => ?_⟩
    exact hd.mem_joints ((h.joined k).1 hk)
  have hlength := (List.subperm_of_subset (List.nodup_cons.2 ⟨hnew, h.single⟩) hsub).length_le
  rwa [List.length_cons, List.length_map] at hlength

theorem next_not_mem (h : Drawn taken done t) {limit : Nat}
    (hids : Set.InjOn (Supply.spell Edge.stem) (Set.Ioc taken (taken + limit)))
    (hlt : t.graph.edges.length < limit) :
    (t.supply.next Edge.stem).1 ∉ t.graph.edgeIds := by
  intro hm
  obtain ⟨f, hf, hid⟩ := List.mem_map.1 hm
  obtain ⟨count, ⟨hlow, hhigh⟩, hname⟩ := h.names f hf
  have hs := h.supply
  have hcount : count = t.supply.taken + 1 := by
    refine hids ⟨hlow, ?_⟩ ⟨?_, ?_⟩ (hname.symm.trans hid)
    · omega
    · omega
    · omega
  omega

theorem connect (h : Drawn taken done t) (hd : Drawing row joints done) (hj : Joints row joints)
    (hrow : (row.map Node.id).Nodup)
    (hids : Set.InjOn (Supply.spell Edge.stem) (Set.Ioc taken (taken + joints.length)))
    (he : e ∈ joints) (ha : e.Allowed t.settings.connection t.graph) :
    Drawn taken (done ++ [.connect e.drop]) (next storage (t, store) (.connect e.drop)).1 := by
  by_cases hold : e ∈ t.graph.edges.map Edge.ends
  · -- the joint is there, and no other edge is on its handles
    obtain ⟨f, hf, rfl⟩ := List.mem_map.1 hold
    have halone : ∀ k ∈ t.graph.edges, k.meets f.ends = true → k = f := by
      intro k hk hm
      exact List.inj_on_of_nodup_map h.single hk hf (h.ends_eq_of_meets hd hj hrow he hk hm)
    obtain ⟨hok, hname⟩ := Graph.connect_of_joined (t.supply.next Edge.stem) ha hf halone
    rw [next_connect_of_idle h.idle hok, hname]
    exact h.again ((h.joined f.ends).1 hold)
  · -- nothing is on its handles, and the supply still has an identifier
    have hfree : t.graph.survivor? e = none := by
      rw [Graph.survivor?_eq_none_iff]
      intro f hf
      rw [← Bool.not_eq_true]
      intro hm
      exact hold (List.mem_map.2 ⟨f, hf, h.ends_eq_of_meets hd hj hrow he hf hm⟩)
    have hnew := h.next_not_mem hids (h.length_lt hd he hold)
    obtain ⟨⟨g, hok, hnodes, hedges⟩, hname⟩ := Graph.connect_eq ha hnew
    rw [Graph.edgesConnecting, hfree] at hedges
    rw [next_connect_of_idle h.idle hok, hname, hfree]
    have hends : g.edges.map Edge.ends = t.graph.edges.map Edge.ends ++ [e] := by
      rw [hedges, List.map_append]
      rfl
    exact {
      idle := h.idle
      nodes := fun n => by
        show n ∈ g.nodes ↔ _
        rw [hnodes, h.nodes, List.mem_append, List.mem_singleton]
        simp
      joined := fun k => by
        show k ∈ g.edges.map Edge.ends ↔ _
        rw [hends, List.mem_append, List.mem_append, h.joined, List.mem_singleton,
          List.mem_singleton, Request.connect.injEq]
        exact or_congr_right ⟨congrArg Ends.drop, Ends.drop_injective⟩
      single := by
        show (g.edges.map Edge.ends).Nodup
        rw [hends, ← List.concat_eq_append]
        exact h.single.concat hold
      supply := by
        show t.supply.taken + 1 = taken + g.edges.length
        rw [hedges, List.length_append, List.length_singleton, h.supply, Nat.add_assoc]
      names := by
        show ∀ f ∈ g.edges, ∃ count ∈ Set.Ioc taken (t.supply.taken + 1), _
        rw [hedges]
        intro f hf
        rcases List.mem_append.1 hf with hf | hf
        · obtain ⟨count, ⟨hlow, hhigh⟩, hid⟩ := h.names f hf
          exact ⟨count, ⟨hlow, Nat.le_succ_of_le hhigh⟩, hid⟩
        · cases List.mem_singleton.1 hf
          have hs := h.supply
          exact ⟨t.supply.taken + 1, ⟨by omega, Nat.le_refl _⟩, rfl⟩ }

theorem allowed (h : Drawn taken done t) (hj : Joints row joints)
    (hrow : (row.map Node.id).Nodup) (he : e ∈ joints)
    (hdone : ∀ n ∈ row, n.id = e.source ∨ n.id = e.target → .addNode n ∈ done) :
    e.Allowed t.settings.connection t.graph := by
  have hthere : ∀ n ∈ row, n.id = e.source ∨ n.id = e.target → n.id ∈ t.graph.nodeIds :=
    fun n hn hend => Graph.id_mem_nodeIds ((h.nodes n).2 (hdone n hn hend))
  obtain ⟨hs, ht⟩ := mem_of_mem_neighbours (hj.mem_neighbours he)
  obtain ⟨a, ha, hsource⟩ := List.mem_map.1 hs
  obtain ⟨b, hb, htarget⟩ := List.mem_map.1 ht
  exact {
    source := hsource ▸ hthere a ha (.inl hsource)
    target := htarget ▸ hthere b hb (.inr htarget)
    loop := fun heq => absurd heq (hj.source_ne_target hrow he) }

/-! ## What is there in the end -/

theorem nodes_perm (h : Drawn taken done t) (hd : Drawing row joints done)
    (hrow : (row.map Node.id).Nodup) (hnodes : ∀ n ∈ row, .addNode n ∈ done) :
    t.graph.nodes.Perm row := by
  rw [List.perm_ext_iff_of_nodup t.graph.nodup_nodes (.of_map Node.id hrow)]
  exact fun n => (h.nodes n).trans ⟨hd.mem_row, hnodes n⟩

theorem ends_perm (h : Drawn taken done t) (hd : Drawing row joints done) (hj : Joints row joints)
    (hrow : (row.map Node.id).Nodup) (hjoined : ∀ e ∈ joints, .connect e.drop ∈ done) :
    (t.graph.edges.map Edge.ends).Perm joints := by
  rw [List.perm_ext_iff_of_nodup h.single (hj.nodup hrow)]
  exact fun e => (h.joined e).trans ⟨hd.mem_joints, hjoined e⟩

theorem links_perm (h : Drawn taken done t) (hd : Drawing row joints done) (hj : Joints row joints)
    (hrow : (row.map Node.id).Nodup) (hjoined : ∀ e ∈ joints, .connect e.drop ∈ done) :
    (t.graph.edges.map fun f => (f.source, f.target)).Perm (neighbours (row.map Node.id)) := by
  have hperm := (h.ends_perm hd hj hrow hjoined).map fun e => (e.source, e.target)
  rwa [hj, List.map_map] at hperm

end Drawn

/-! ## Runs -/

section Runs
variable {row : List Node} {joints : List Ends} {requests : List Request}

theorem drawn_of_run (storage : Storage σ) (s : Session) (store : σ) (hi : s.gesture = .idle)
    (hg : s.graph = Graph.empty) (hj : Joints row joints) (hrow : (row.map Node.id).Nodup)
    (hids : Set.InjOn (Supply.spell Edge.stem)
      (Set.Ioc s.supply.taken (s.supply.taken + joints.length)))
    (hd : Drawing row joints requests) :
    Drawn s.supply.taken requests (run storage (s, store) requests).1 := by
  induction hd with
  | nil => exact .start hi hg
  | node before hn ih =>
    rw [run_concat]
    exact ih.addNode before hrow hn
  | joint before he hn ih =>
    rw [run_concat]
    exact ih.connect before hj hrow hids he (ih.allowed hj hrow he hn)

end Runs

theorem compile_of_drawing (storage : Storage σ) (s : Session) (store : σ)
    {start finish : Node} {groups : List Node} {joints : List Ends} {requests : List Request}
    (hi : s.gesture = .idle) (hg : s.graph = Graph.empty)
    (hstart : start.kind = .start) (hgroups : ∀ n ∈ groups, n.kind = .stepGroup)
    (hfinish : finish.kind = .finish)
    (hrow : ((Graph.row start groups finish).map Node.id).Nodup)
    (hj : Joints (Graph.row start groups finish) joints)
    (hids : Set.InjOn (Supply.spell Edge.stem)
      (Set.Ioc s.supply.taken (s.supply.taken + joints.length)))
    (hd : Drawing (Graph.row start groups finish) joints requests)
    (hnodes : ∀ n ∈ Graph.row start groups finish, .addNode n ∈ requests)
    (hjoined : ∀ e ∈ joints, .connect e.drop ∈ requests) :
    (∀ m, ∃ steps, (run storage (s, store) requests).1.graph.compile m = .ok ⟨m, steps⟩ ∧
        List.Forall₂ Payload.Becomes (groups.map Node.payload) steps) ∧
      (run storage (s, store) requests).1.graph.edges.length = groups.length + 1 := by
  have hdrawn := drawn_of_run storage s store hi hg hj hrow hids hd
  have hline : (run storage (s, store) requests).1.graph.Line start groups finish :=
    { starts := hstart
      steps := hgroups
      finishes := hfinish
      covers := hdrawn.nodes_perm hd hrow hnodes
      links := hdrawn.links_perm hd hj hrow hjoined }
  constructor
  · intro m
    exact ⟨_, hline.compile_eq m, hline.becomes_steps⟩
  · have hlength := (hdrawn.ends_perm hd hj hrow hjoined).length_eq
    rw [List.length_map, hj.length_eq, Graph.row] at hlength
    simpa using hlength

end Session

/-! ## Identifiers that differ -/

theorem Text.hex_injOn (width : Nat) : Set.InjOn (Text.hex width) (Set.Iio (16 ^ width)) := by
  have hdigit : ∀ a < 16, ∀ b < 16, Text.hexDigit a = Text.hexDigit b → a = b := by decide
  induction width with
  | zero =>
    intro m hm n hn _
    rw [Set.mem_Iio, Nat.pow_zero, Nat.lt_one_iff] at hm hn
    rw [hm, hn]
  | succ width ih =>
    intro m hm n hn h
    rw [Set.mem_Iio, Nat.pow_succ'] at hm hn
    obtain ⟨hinit, hlast⟩ := List.append_inj' h rfl
    have hquotient : m / 16 = n / 16 :=
      ih (Nat.div_lt_of_lt_mul hm) (Nat.div_lt_of_lt_mul hn) hinit
    have hrest : m % 16 = n % 16 :=
      hdigit _ (Nat.mod_lt _ (by decide)) _ (Nat.mod_lt _ (by decide)) (List.singleton_inj.1 hlast)
    omega

/-- As long as twelve digits suffice, the identifiers of a stem differ. -/
theorem Supply.spell_injOn (stem : String) : Set.InjOn (Supply.spell stem) (Set.Iio (16 ^ 12)) := by
  intro m hm n hn h
  refine Text.hex_injOn 12 hm hn ?_
  have hchars := congrArg String.toList h
  simpa [Supply.spell] using hchars

/-! ## A drawing that begins at the end -/

namespace Session

/-- A draft that is checked. -/
def sampleRow : List Node :=
  Graph.row Graph.sampleStart [Graph.sampleDraft, Graph.sampleCheck] Graph.sampleFinish

def sampleJoints : List Ends :=
  [⟨"s", some "out", "draft", none⟩, ⟨"draft", none, "check", none⟩,
    ⟨"check", none, "e", some "in"⟩]

/-- The last two nodes are joined before the others are there, and once more at the end. -/
def sampleDrawing : List Request :=
  [.addNode Graph.sampleFinish, .addNode Graph.sampleCheck,
    .connect (Ends.drop ⟨"check", none, "e", some "in"⟩), .addNode Graph.sampleStart,
    .addNode Graph.sampleDraft, .connect (Ends.drop ⟨"draft", none, "check", none⟩),
    .connect (Ends.drop ⟨"s", some "out", "draft", none⟩),
    .connect (Ends.drop ⟨"check", none, "e", some "in"⟩)]

theorem forall_mem_sampleRow {p : Node → Prop} : (∀ n ∈ sampleRow, p n) ↔
    p Graph.sampleStart ∧ p Graph.sampleDraft ∧ p Graph.sampleCheck ∧ p Graph.sampleFinish := by
  simp [sampleRow, Graph.row]

theorem sample_drawing : Drawing sampleRow sampleJoints sampleDrawing := by
  obtain ⟨hstart, hdraft, hcheck, hfinish⟩ := forall_mem_sampleRow.1 fun n hn => hn
  have hlast : Drawing sampleRow sampleJoints
      [.addNode Graph.sampleFinish, .addNode Graph.sampleCheck] :=
    (Drawing.nil.node hfinish).node hcheck
  have hjoined : Drawing sampleRow sampleJoints [.addNode Graph.sampleFinish,
      .addNode Graph.sampleCheck, .connect (Ends.drop ⟨"check", none, "e", some "in"⟩)] :=
    hlast.joint (by decide) (forall_mem_sampleRow.2
      ⟨fun hend => absurd hend (by decide), fun hend => absurd hend (by decide),
        fun _ => by simp, fun _ => by simp⟩)
  have hmiddle := ((hjoined.node hstart).node hdraft).joint
    (e := ⟨"draft", none, "check", none⟩) (by decide) (forall_mem_sampleRow.2
      ⟨fun _ => by simp, fun _ => by simp, fun _ => by simp, fun _ => by simp⟩)
  have hfirst := hmiddle.joint (e := ⟨"s", some "out", "draft", none⟩) (by decide)
    (forall_mem_sampleRow.2
      ⟨fun _ => by simp, fun _ => by simp, fun _ => by simp, fun _ => by simp⟩)
  exact hfirst.joint (e := ⟨"check", none, "e", some "in"⟩) (by decide) (forall_mem_sampleRow.2
    ⟨fun _ => by simp, fun _ => by simp, fun _ => by simp, fun _ => by simp⟩)

theorem compile_of_sampleDrawing :
    ((sampleRow.map Node.id).Nodup ∧ Joints sampleRow sampleJoints ∧
      Drawing sampleRow sampleJoints sampleDrawing ∧
      (∀ n ∈ sampleRow, .addNode n ∈ sampleDrawing) ∧
      ∀ e ∈ sampleJoints, .connect e.drop ∈ sampleDrawing) ∧
    (∀ m, (run forgetful ({ settings := {} }, ()) sampleDrawing).1.graph.compile m =
      .ok ⟨m, Graph.sampleSteps⟩) ∧
    (run forgetful ({ settings := {} }, ()) sampleDrawing).1.graph.edges.length = 3 := by
  have hrow : (sampleRow.map Node.id).Nodup := by decide
  have hj : Joints sampleRow sampleJoints := rfl
  have hids : Set.InjOn (Supply.spell Edge.stem) (Set.Ioc 0 (0 + sampleJoints.length)) := by
    refine (Supply.spell_injOn Edge.stem).mono fun count hcount => ?_
    exact lt_of_le_of_lt hcount.2 (by decide)
  have hnodes : ∀ n ∈ sampleRow, .addNode n ∈ sampleDrawing :=
    forall_mem_sampleRow.2 (by simp [sampleDrawing])
  have hjoined : ∀ e ∈ sampleJoints, .connect e.drop ∈ sampleDrawing := by
    simp [sampleJoints, sampleDrawing]
  obtain ⟨hcompiles, hlength⟩ := compile_of_drawing forgetful { settings := {} } () rfl rfl rfl
    (by simp [Graph.sampleDraft, Graph.sampleCheck, Node.kind, Payload.kind]) rfl hrow hj hids
    sample_drawing hnodes hjoined
  refine ⟨⟨hrow, hj, sample_drawing, hnodes, hjoined⟩, fun m => ?_, hlength⟩
  obtain ⟨steps, hc, hs⟩ := hcompiles m
  rw [Graph.eq_sampleSteps hs] at hc
  exact hc

end Session
end WorkflowCanvas
