import WorkflowCanvas.Proofs.Gesture.Settled
import WorkflowCanvas.Proofs.Graph.Review
import WorkflowCanvas.Proofs.Workflow.Wording

/-! What a verdict tells of edges that come together. Main statement: among the errors there is one
text for each handle that several edges use, which counts and names them in the order of the edges,
and one for each node that several edges leave and for each that several enter, with their number;
wherever a handle is told of, so is its node in that direction. The texts are spelled out here, word
by word. -/
namespace WorkflowCanvas
set_option autoImplicit false

/-! ## Texts -/

/-- What is told of a handle that several edges use: the handle between quotes, or a word where it
has no name; its node; whether the edges leave there or enter; their number, and all of them. -/
def sharingText (key : HandleKey) (edges : List String) : String :=
  let handle := match key.handle with
    | none => "None"
    | some name => Text.quoted name
  let use := match key.direction with
    | .source => "source"
    | .target => "target"
  "Handle " ++ handle ++ " on node '" ++ key.node ++ "' is used as " ++ use ++ " by " ++
    toString edges.length ++ " edges: " ++ ", ".intercalate edges

/-- What is told of a node that several edges leave, or that several enter. -/
def branchingText (node : String) (count : Nat) (flow : Flow) : String :=
  let side := match flow with
    | .outgoing => "outgoing"
    | .incoming => "incoming"
  "Node '" ++ node ++ "' has " ++ toString count ++ " " ++ side ++
    " connections; a workflow must be a single chain"

namespace Violation

theorem message_sharedHandle (key : HandleKey) (edges : List String) :
    (sharedHandle key edges).message = sharingText key edges := by
  obtain ⟨node, handle, direction⟩ := key
  unfold message sharingText
  simp only [String.append_assoc]
  cases handle with
  | none => cases direction <;> rfl
  | some name => cases direction <;> rfl

theorem message_branching (node : String) (count : Nat) (flow : Flow) :
    (branching node count flow).message = branchingText node count flow := by
  cases flow <;> rfl

end Violation

/-! ## Rows that hold something -/

theorem Rows.mem_of_row_ne_nil {κ : Type} [BEq κ] [LawfulBEq κ] {rows : Rows κ} {key : κ}
    (h : row rows key ≠ []) : (key, row rows key) ∈ rows := by
  induction rows with
  | nil => exact absurd rfl h
  | cons r rest ih =>
    obtain ⟨k, ids⟩ := r
    by_cases hk : key = k
    · subst hk
      simp [row]
    · have hne : (key == k) = false := by simp [hk]
      have hrow : row ((k, ids) :: rest) key = row rest key := by
        simp [row, List.lookup_cons, hne]
      rw [hrow] at h ⊢
      exact List.mem_cons_of_mem _ (ih h)

/-- Whether a violation is one of edges that come together. -/
def Violation.isSharing : Violation → Bool
  | sharedHandle _ _ => true
  | branching _ _ _ => true
  | _ => false

/-- The flow of a node to which the edges on a handle belong. -/
def Direction.flow : Direction → Flow
  | source => .outgoing
  | target => .incoming

namespace Graph
variable {g : Graph}

/-! ## Handles that several edges use -/

/-- The edges that use a handle, in their order. -/
def users (g : Graph) (key : HandleKey) : List Edge := g.edges.filter (·.uses key)

/-- The handles that several edges use, in the order of their first use. -/
def sharedKeys (g : Graph) : List HandleKey :=
  (g.usage.filter fun row => 1 < row.2.length).map Prod.fst

theorem nodup_sharedKeys (g : Graph) : g.sharedKeys.Nodup :=
  g.nodup_usage.sublist (List.filter_sublist.map Prod.fst)

theorem mem_sharedKeys_iff {key : HandleKey} : key ∈ g.sharedKeys ↔ 1 < (g.users key).length := by
  rw [sharedKeys, List.mem_map]
  constructor
  · rintro ⟨⟨k, ids⟩, hm, rfl⟩
    rw [List.mem_filter, decide_eq_true_iff] at hm
    obtain ⟨hrow, hl⟩ := hm
    rw [g.ids_of_mem_usage hrow, List.length_map] at hl
    exact hl
  · intro hl
    have hrow : g.usage.row key = (g.users key).map Edge.id := g.row_usage key
    have hlength : (g.usage.row key).length = (g.users key).length := by
      rw [hrow, List.length_map]
    have hm : (key, g.usage.row key) ∈ g.usage := by
      refine Rows.mem_of_row_ne_nil fun hnil => ?_
      rw [hnil, List.length_nil] at hlength
      omega
    exact ⟨_, List.mem_filter.2 ⟨hm, decide_eq_true (hlength ▸ hl)⟩, rfl⟩

theorem sharedHandles_eq (g : Graph) :
    g.sharedHandles = g.sharedKeys.map fun key =>
      .sharedHandle key ((g.users key).map Edge.id) := by
  rw [sharedHandles, sharedKeys, List.map_map]
  refine List.map_congr_left fun row hm => ?_
  obtain ⟨key, ids⟩ := row
  rw [g.ids_of_mem_usage (List.mem_filter.1 hm).1]
  rfl

/-! ## Nodes that several edges leave or enter -/

/-- The edges that make up a flow of a node, in their order. -/
def edgesIn (g : Graph) (node : String) : Flow → List Edge
  | .outgoing => g.edges.filter (·.source == node)
  | .incoming => g.edges.filter (·.target == node)

/-- The flows that several edges make up, in the order of the nodes. -/
def branchPoints (g : Graph) : List (String × Flow) :=
  g.nodeIds.flatMap fun node =>
    ([Flow.outgoing, .incoming].filter fun flow => 1 < (g.edgesIn node flow).length).map (node, ·)

theorem mem_nodeIds_of_edgesIn {node : String} {flow : Flow} {e : Edge}
    (h : e ∈ g.edgesIn node flow) : node ∈ g.nodeIds := by
  cases flow with
  | outgoing =>
    obtain ⟨he, hs⟩ := List.mem_filter.1 h
    exact beq_iff_eq.1 hs ▸ (g.anchored e he).1
  | incoming =>
    obtain ⟨he, ht⟩ := List.mem_filter.1 h
    exact beq_iff_eq.1 ht ▸ (g.anchored e he).2

theorem mem_branchPoints_iff {node : String} {flow : Flow} :
    (node, flow) ∈ g.branchPoints ↔ 1 < (g.edgesIn node flow).length := by
  have hflow : flow ∈ [Flow.outgoing, .incoming] := by cases flow <;> simp
  simp only [branchPoints, List.mem_flatMap, List.mem_map, List.mem_filter, decide_eq_true_iff,
    Prod.mk.injEq]
  constructor
  · rintro ⟨_, -, _, ⟨-, hl⟩, rfl, rfl⟩
    exact hl
  · intro hl
    obtain ⟨e, he⟩ := List.exists_mem_of_length_pos (Nat.zero_lt_of_lt hl)
    exact ⟨node, mem_nodeIds_of_edgesIn he, flow, ⟨hflow, hl⟩, rfl, rfl⟩

theorem nodup_branchPoints (g : Graph) : g.branchPoints.Nodup := by
  rw [branchPoints, List.nodup_flatMap]
  constructor
  · intro node _
    have hflows : [Flow.outgoing, .incoming].Nodup := by decide
    exact (hflows.filter _).map fun _ _ h => congrArg Prod.snd h
  · refine g.nodes_distinct.imp fun hne => ?_
    rintro ⟨a, flow⟩ hm hm'
    obtain ⟨_, -, hp⟩ := List.mem_map.1 hm
    obtain ⟨_, -, hp'⟩ := List.mem_map.1 hm'
    exact hne ((congrArg Prod.fst hp).trans (congrArg Prod.fst hp').symm)

theorem branchings_eq (g : Graph) (node : String) :
    g.branchings node =
      ([Flow.outgoing, .incoming].filter fun flow => 1 < (g.edgesIn node flow).length).map
        fun flow => .branching node (g.edgesIn node flow).length flow := by
  have hs : g.outgoing node = g.edgesIn node .outgoing := g.outgoing_eq node
  have ht : g.incoming node = g.edgesIn node .incoming := g.incoming_eq node
  simp only [branchings, hs, ht, List.filter_cons, List.filter_nil, decide_eq_true_iff]
  split <;> split <;> rfl

theorem flatMap_branchings_eq (g : Graph) :
    g.nodeIds.flatMap g.branchings = g.branchPoints.map fun p =>
      .branching p.1 (g.edgesIn p.1 p.2).length p.2 := by
  rw [branchPoints, List.map_flatMap]
  refine List.flatMap_congr fun node _ => ?_
  rw [branchings_eq, List.map_map]
  rfl

/-! ## The errors that tell of them -/

theorem pathViolations_apart {start finish : Node} {v : Violation}
    (h : v ∈ g.pathViolations start finish) : v.isSharing = false := by
  rw [pathViolations, List.mem_append, List.mem_append] at h
  rcases h with (h | h) | h
  · split at h
    · cases h
    · rw [List.mem_singleton.1 h]
      rfl
  · split at h
    · cases h
    · rw [List.mem_singleton.1 h]
      rfl
  · split at h
    · cases h
    · rw [List.mem_singleton.1 h]
      rfl

/-- Of violations of edges that come together, those of handles are told first, and no other check
tells of any. -/
theorem filter_violations {test : Violation → Bool}
    (ht : ∀ v, test v = true → v.isSharing = true) :
    g.violations.filter test =
      g.sharedHandles.filter test ++ (g.nodeIds.flatMap g.branchings).filter test := by
  have hnone : ∀ {vs : List Violation}, (∀ v ∈ vs, v.isSharing = false) → vs.filter test = [] := by
    intro vs hvs
    rw [List.filter_eq_nil_iff]
    intro v hv htest
    exact Bool.false_ne_true ((hvs v hv).symm.trans (ht v htest))
  have hstarts : (countViolations .noStart .severalStarts (g.nodesOfKind .start).length).filter
      test = [] := hnone fun v hv => by
    rcases mem_countViolations hv with rfl | rfl <;> rfl
  have hends : (countViolations .noEnd .severalEnds (g.nodesOfKind .finish).length).filter
      test = [] := hnone fun v hv => by
    rcases mem_countViolations hv with rfl | rfl <;> rfl
  have hcycle : (g.cycleNode?.map Violation.cycle).toList.filter test = [] := hnone fun v hv => by
    obtain ⟨node, -, rfl⟩ := Option.map_eq_some_iff.1 (Option.mem_toList.1 hv)
    rfl
  cases hterminals : g.terminals? with
  | none =>
    simp only [violations, hterminals, List.filter_append, hstarts, hends, hcycle,
      List.nil_append, List.append_nil]
  | some t =>
    have hpath : (g.pathViolations t.1 t.2).filter test = [] := hnone fun v => pathViolations_apart
    simp only [violations, hterminals, List.filter_append, hstarts, hends, hcycle, hpath,
      List.nil_append, List.append_nil]

theorem filter_structural {opening : String}
    (ht : ∀ v : Violation, Text.opensWith opening v.message = true → v.isSharing = true) :
    g.verdict.structural.filter (Text.opensWith opening) =
      (g.sharedKeys.map fun key => (Violation.sharedHandle key
        ((g.users key).map Edge.id)).message).filter (Text.opensWith opening) ++
      (g.branchPoints.map fun p => (Violation.branching p.1 (g.edgesIn p.1 p.2).length
        p.2).message).filter (Text.opensWith opening) := by
  have htold : g.verdict.structural = g.violations.map Violation.message := rfl
  have hsharing : ∀ v, (Text.opensWith opening ∘ Violation.message) v = true →
      v.isSharing = true := ht
  rw [htold, List.filter_map, filter_violations hsharing, List.map_append, ← List.filter_map,
    ← List.filter_map, sharedHandles_eq, flatMap_branchings_eq, List.map_map, List.map_map]
  rfl

theorem filter_structural_handle (g : Graph) :
    g.verdict.structural.filter (Text.opensWith "Handle ") = g.sharedKeys.map fun key =>
      sharingText key ((g.users key).map Edge.id) := by
  have hsharing : ∀ v : Violation, Text.opensWith "Handle " v.message = true →
      v.isSharing = true := by
    intro v ho
    obtain ⟨_, _, rfl⟩ := Violation.opensWith_handle_iff.1 ho
    rfl
  rw [filter_structural hsharing, List.filter_eq_self.2, List.filter_eq_nil_iff.2, List.append_nil]
  · simp only [Violation.message_sharedHandle]
  · refine List.forall_mem_map.2 fun p _ ho => ?_
    obtain ⟨_, _, heq⟩ := Violation.opensWith_handle_iff.1 ho
    cases heq
  · exact List.forall_mem_map.2 fun key _ => Violation.opensWith_handle_iff.2 ⟨_, _, rfl⟩

theorem filter_structural_node (g : Graph) :
    g.verdict.structural.filter (Text.opensWith "Node '") = g.branchPoints.map fun p =>
      branchingText p.1 (g.edgesIn p.1 p.2).length p.2 := by
  have hsharing : ∀ v : Violation, Text.opensWith "Node '" v.message = true →
      v.isSharing = true := by
    intro v ho
    obtain ⟨_, _, _, rfl⟩ := Violation.opensWith_node_iff.1 ho
    rfl
  rw [filter_structural hsharing, List.filter_eq_nil_iff.2, List.filter_eq_self.2, List.nil_append]
  · simp only [Violation.message_branching]
  · exact List.forall_mem_map.2 fun p _ => Violation.opensWith_node_iff.2 ⟨_, _, _, rfl⟩
  · refine List.forall_mem_map.2 fun key _ ho => ?_
    obtain ⟨_, _, _, heq⟩ := Violation.opensWith_node_iff.1 ho
    cases heq

/-- An edge that uses a handle belongs to the flow of its node. -/
theorem length_users_le (g : Graph) (key : HandleKey) :
    (g.users key).length ≤ (g.edgesIn key.node key.direction.flow).length := by
  obtain ⟨node, handle, direction⟩ := key
  rw [users, ← List.countP_eq_length_filter]
  cases direction with
  | source =>
    rw [Direction.flow, edgesIn, ← List.countP_eq_length_filter]
    refine List.countP_mono_left fun e _ hu => ?_
    rw [Edge.uses, Bool.or_eq_true, beq_iff_eq, beq_iff_eq] at hu
    rcases hu with hu | hu
    · exact beq_iff_eq.2 (congrArg HandleKey.node hu)
    · cases congrArg HandleKey.direction hu
  | target =>
    rw [Direction.flow, edgesIn, ← List.countP_eq_length_filter]
    refine List.countP_mono_left fun e _ hu => ?_
    rw [Edge.uses, Bool.or_eq_true, beq_iff_eq, beq_iff_eq] at hu
    rcases hu with hu | hu
    · cases congrArg HandleKey.direction hu
    · exact beq_iff_eq.2 (congrArg HandleKey.node hu)

theorem sharing_told (g : Graph) :
    (∃ (keys : List HandleKey) (points : List (String × Flow)),
      (g.verdict.structural.filter (Text.opensWith "Handle ") = keys.map fun key =>
          sharingText key ((g.users key).map Edge.id)) ∧
        keys.Nodup ∧ (∀ key, key ∈ keys ↔ 1 < (g.users key).length) ∧
      (g.verdict.structural.filter (Text.opensWith "Node '") = points.map fun p =>
          branchingText p.1 (g.edgesIn p.1 p.2).length p.2) ∧
        points.Nodup ∧
        (∀ node flow, (node, flow) ∈ points ↔ 1 < (g.edgesIn node flow).length) ∧
      ∀ key ∈ keys, (key.node, key.direction.flow) ∈ points) ∧
    ∀ name : String, name.toList.all Text.isPlain = true →
      Text.quoted name = "'" ++ name ++ "'" := by
  refine ⟨⟨g.sharedKeys, g.branchPoints, g.filter_structural_handle, g.nodup_sharedKeys,
    fun key => mem_sharedKeys_iff, g.filter_structural_node, g.nodup_branchPoints,
    fun node flow => mem_branchPoints_iff, fun key hkey => ?_⟩, fun _ => Text.quoted_of_plain⟩
  exact mem_branchPoints_iff.2
    (Nat.lt_of_lt_of_le (mem_sharedKeys_iff.1 hkey) (g.length_users_le key))

/-! ## A start that several edges leave at one handle, and one at another -/

/-- Between the two edges at one handle stands an edge that leads back. -/
def crowded : Graph where
  nodes := [⟨"hub", {}, .start ⟨"Start", none⟩, by decide⟩,
    ⟨"rim", {}, .finish ⟨"End", none⟩, by decide⟩]
  edges := [.plain "spoke" ⟨"hub", some "out", "rim", none⟩ (by decide),
    .plain "loop" ⟨"hub", none, "hub", some ""⟩ (by decide),
    .plain "spare" ⟨"hub", some "out", "rim", none⟩ (by decide)]
  nodes_distinct := by decide
  edges_distinct := by decide
  anchored := by decide

theorem sharing_told_crowded :
    ("Handle 'out' on node 'hub' is used as source by 2 edges: spoke, spare" ∈
        crowded.verdict.structural ∧
      "Handle None on node 'rim' is used as target by 2 edges: spoke, spare" ∈
        crowded.verdict.structural ∧
      "Node 'hub' has 3 outgoing connections; a workflow must be a single chain" ∈
        crowded.verdict.structural ∧
      "Node 'rim' has 2 incoming connections; a workflow must be a single chain" ∈
        crowded.verdict.structural) ∧
    Text.quoted "out" = "'out'" := by
  obtain ⟨⟨keys, points, hhandles, -, hkeys, hnodes, -, hpoints, hboth⟩, hquoted⟩ :=
    sharing_told crowded
  have hhub : ⟨"hub", some "out", .source⟩ ∈ keys := (hkeys _).2 (by decide)
  have hrim : ⟨"rim", none, .target⟩ ∈ keys := (hkeys _).2 (by decide)
  have hout : Text.quoted "out" = "'out'" := hquoted "out" rfl
  refine ⟨⟨(List.mem_filter.1 (hhandles ▸ List.mem_map.2 ⟨_, hhub, ?_⟩)).1,
    (List.mem_filter.1 (hhandles ▸ List.mem_map.2 ⟨_, hrim, ?_⟩)).1,
    (List.mem_filter.1 (hnodes ▸ List.mem_map.2 ⟨_, hboth _ hhub, ?_⟩)).1,
    (List.mem_filter.1 (hnodes ▸ List.mem_map.2 ⟨_, hboth _ hrim, ?_⟩)).1⟩, hout⟩
  · rfl
  · rfl
  · rfl
  · rfl

end Graph
end WorkflowCanvas
