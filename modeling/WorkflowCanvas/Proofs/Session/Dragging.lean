import WorkflowCanvas.Proofs.Gesture.Failing
import WorkflowCanvas.Proofs.Session.Exclusive

/-! Drags in the course of a session. Main statement: an edge is dragged exactly while some request
has picked one up and none has put it down since; the session then remembers the edge that it was
told of last, takes every signal to connect for a signal to move that edge, and whatever else it is
asked meanwhile, no identifier of an edge is new. -/
namespace WorkflowCanvas
set_option autoImplicit false

/-! ## Picking up and putting down -/

/-- Whether a request starts a drag. The edge may not be known yet; a value that can name none is
refused. -/
def Request.picksUp : Request → Bool
  | .reconnectStart .null | .reconnectStart (.str _) => true
  | _ => false

/-- The edge that a request says is dragged. -/
def Request.told? : Request → Option (Option String)
  | .reconnectStart .null => some none
  | .reconnectStart (.str id) => some (some id)
  | .reconnect edge _ => some edge
  | _ => none

theorem Request.picksUp_of_untold {r : Request} (h : r.told? = none) : r.picksUp = false := by
  unfold Request.picksUp
  split
  · cases h
  · cases h
  · rfl

@[simp] theorem Gesture.remember_idle (edge : Option String) :
    Gesture.idle.remember edge = .idle := rfl

@[simp] theorem Gesture.remember_reconnecting (former edge : Option String) :
    (Gesture.reconnecting former).remember edge = .reconnecting edge := rfl

namespace Session
variable {σ : Type}

/-- Whether a request puts down whatever is dragged: the drag is over, or a document was loaded. -/
def putsDown (storage : Storage σ) (here : Session × σ) (r : Request) : Bool :=
  match r with
  | .reconnectEnd => true
  | .load _ | .openNamed _ => (here.1.handle storage here.2 r).1.1.isOk
  | _ => false

/-- Whether none of some requests puts down what is dragged. -/
def keepsHold (storage : Storage σ) : Session × σ → List Request → Bool
  | _, [] => true
  | here, r :: rest => !putsDown storage here r && keepsHold storage (next storage here r) rest

/-- A request has picked up an edge, and none has put it down since. -/
def InFlight (storage : Storage σ) (start : Session × σ) (requests : List Request) : Prop :=
  ∃ before r after, requests = before ++ r :: after ∧ r.picksUp = true ∧
    keepsHold storage (run storage start (before ++ [r])) after = true

variable {storage : Storage σ} {start here : Session × σ} {requests : List Request} {r : Request}

theorem picksUp_of_putsDown (h : putsDown storage here r = true) : r.picksUp = false := by
  cases r with
  | reconnectStart edge => cases h
  | _ => rfl

theorem keepsHold_concat {more : List Request} : keepsHold storage here (more ++ [r]) = true ↔
    keepsHold storage here more = true ∧ putsDown storage (run storage here more) r = false := by
  induction more generalizing here with
  | nil => simp [keepsHold, run]
  | cons q rest ih =>
    simp only [List.cons_append, keepsHold, Bool.and_eq_true, ih, and_assoc]
    rfl

theorem inFlight_concat : InFlight storage start (requests ++ [r]) ↔
    r.picksUp = true ∨
      InFlight storage start requests ∧ putsDown storage (run storage start requests) r = false := by
  constructor
  · rintro ⟨before, q, after, heq, hq, hkept⟩
    rcases List.eq_nil_or_concat' after with rfl | ⟨rest, last, rfl⟩
    · obtain ⟨rfl, hr⟩ := List.append_inj' heq rfl
      cases hr
      exact .inl hq
    · have hsplit : requests ++ [r] = (before ++ q :: rest) ++ [last] := by simpa using heq
      obtain ⟨rfl, hr⟩ := List.append_inj' hsplit rfl
      cases hr
      rw [keepsHold_concat, ← run_append, List.append_assoc] at hkept
      exact .inr ⟨⟨before, q, rest, rfl, hq, hkept.1⟩, hkept.2⟩
  · rintro (hr | ⟨⟨before, q, after, rfl, hq, hkept⟩, hdown⟩)
    · exact ⟨requests, r, [], rfl, hr, rfl⟩
    · refine ⟨before, q, after ++ [r], by simp, hq, keepsHold_concat.2 ⟨hkept, ?_⟩⟩
      rw [← run_append, List.append_assoc]
      exact hdown

/-! ## What is remembered -/

theorem gesture_edited {s : Session} {result : Except Failure Graph} {answer : Graph → Answer} :
    (s.edited result answer).2.gesture = s.gesture := by
  cases result <;> rfl

theorem gesture_load (s : Session) (v : Json) :
    (s.load v).2.gesture = if (s.load v).1.isOk then .idle else s.gesture := by
  unfold load
  cases Archive.load s.settings.layout v <;> rfl

theorem gesture_openNamed (s : Session) (store : σ) (name : String) :
    (s.openNamed storage store name).2.gesture =
      if (s.openNamed storage store name).1.isOk then .idle else s.gesture := by
  unfold openNamed
  cases storage.load store name with
  | error failure => rfl
  | ok fields => exact gesture_load s _

theorem gesture_reconnect (s : Session) (edge : Option String) (d : Drop) :
    (s.reconnect edge d).2.gesture = s.gesture.remember edge := by
  obtain ⟨g, hok⟩ := Graph.exists_reconnect s.settings.connection s.graph edge d
  rw [reconnect, hok]

theorem told?_of_isQuiet (h : r.isQuiet = true) : r.told? = none := by
  cases r with
  | connect | reconnectStart | reconnect | reconnectEnd | load | openNamed => cases h
  | _ => rfl

theorem putsDown_of_isQuiet (h : r.isQuiet = true) : putsDown storage here r = false := by
  cases r with
  | connect | reconnectStart | reconnect | reconnectEnd | load | openNamed => cases h
  | _ => rfl

/-- What a request makes of the gesture. -/
theorem gesture_next (storage : Storage σ) (s : Session) (store : σ) (r : Request) :
    (next storage (s, store) r).1.gesture =
      if putsDown storage (s, store) r then .idle
      else match r.told? with
        | some edge => if r.picksUp then .reconnecting edge else s.gesture.remember edge
        | none => s.gesture := by
  by_cases hr : r.isQuiet = true
  · rw [(quiet_next storage s store hr).gesture, told?_of_isQuiet hr, putsDown_of_isQuiet hr]
    rfl
  cases r with
  | connect d => exact gesture_edited
  | reconnectStart edge => cases edge <;> rfl
  | reconnect edge d => exact gesture_reconnect s edge d
  | reconnectEnd => rfl
  | load v => exact gesture_load s v
  | openNamed name => exact gesture_openNamed s store name
  | _ => exact absurd rfl hr

/-- Between drags nothing is remembered; in a drag it is the edge that was told of last. -/
theorem gesture_run (storage : Storage σ) (start : Session × σ) (requests : List Request)
    (hi : start.1.gesture = .idle) :
    (run storage start requests).1.gesture = .idle ∧ ¬ InFlight storage start requests ∨
      ∃ edge, (run storage start requests).1.gesture = .reconnecting edge ∧
        InFlight storage start requests ∧
        (requests.filterMap Request.told?).getLast? = some edge := by
  induction requests using List.reverseRecOn with
  | nil =>
    refine .inl ⟨hi, ?_⟩
    rintro ⟨before, r, after, heq, -⟩
    simp at heq
  | append_singleton before r ih =>
    have hstep := gesture_next storage (run storage start before).1 (run storage start before).2 r
    rw [run_concat, inFlight_concat, List.filterMap_append, hstep]
    -- The last request decides: it puts the edge down, or it tells of one, or nothing changes.
    cases hdown : putsDown storage (run storage start before) r with
    | true => exact .inl ⟨rfl, by simp [picksUp_of_putsDown hdown]⟩
    | false =>
      cases htold : r.told? with
      | none =>
        have hup := Request.picksUp_of_untold htold
        have hnone : [r].filterMap Request.told? = [] := by simp [htold]
        simpa [hup, hnone] using ih
      | some edge =>
        have hlast : (before.filterMap Request.told? ++ [r].filterMap Request.told?).getLast? =
            some edge := by simp [htold]
        cases hup : r.picksUp with
        | true => exact .inr ⟨edge, rfl, .inl rfl, hlast⟩
        | false =>
          rcases ih with ⟨hidle, hground⟩ | ⟨former, hdrag, hflight, -⟩
          · exact .inl ⟨by simp [hidle], by simp [hground]⟩
          · exact .inr ⟨edge, by simp [hdrag], .inr ⟨hflight, rfl⟩, hlast⟩

/-! ## In a drag -/

theorem connect_of_reconnecting {s : Session} {edge : Option String}
    (h : s.gesture = .reconnecting edge) (d : Drop) : s.connect d = s.reconnect edge d := by
  obtain ⟨g, hok⟩ := Graph.exists_reconnect s.settings.connection s.graph edge d
  have hsignal : (s.resolution d).apply s.graph = .ok g ∧ (s.resolution d).takesName = false := by
    rw [resolution, Graph.resolveSignal, if_pos (by rw [h]; rfl), h]
    cases edge with
    | none => exact ⟨hok, rfl⟩
    | some id => exact ⟨hok, Graph.takesName_resolveReconnect (some id)⟩
  rw [reconnect, hok, h, Gesture.remember_reconnecting, ← h]
  simp only [connect, hsignal]
  rfl

theorem reconnect_of_unknown {s : Session} {edge : Option String}
    (h : edge.bind s.graph.edge? = none) (hs : s.gesture = .reconnecting edge) (d : Drop) :
    s.reconnect edge d = (.ok .done, s) := by
  rw [reconnect, Graph.reconnect_of_unknown h, hs, Gesture.remember_reconnecting, ← hs]

/-- What a request leaves of a session in a drag. -/
structure Carried (r : Request) (s t : Session) : Prop where
  edges : t.gesture.phase = .reconnecting → t.graph.edgeIds ⊆ s.graph.edgeIds
  supply : t.supply = s.supply.spentIf r.placesAgent

theorem carried_reconnect (hr : r.placesAgent = false) (s : Session) (edge : Option String)
    (d : Drop) : Carried r s (s.reconnect edge d).2 := by
  obtain ⟨g, hok⟩ := Graph.exists_reconnect s.settings.connection s.graph edge d
  rw [reconnect, hok]
  exact ⟨fun _ => Graph.edgeIds_reconnect_subset hok, by rw [hr]; rfl⟩

theorem carried_load (hr : r.placesAgent = false) (s : Session) (v : Json) :
    Carried r s (s.load v).2 := by
  unfold load
  split
  · exact ⟨fun hphase => (by cases hphase), by rw [hr]; rfl⟩
  · exact ⟨fun _ => List.Subset.refl _, by rw [hr]; rfl⟩

theorem carried_next (storage : Storage σ) (store : σ) {s : Session} {edge : Option String}
    (hs : s.gesture = .reconnecting edge) (r : Request) :
    Carried r s (next storage (s, store) r).1 := by
  by_cases hr : r.isQuiet = true
  · have hquiet := quiet_next storage s store hr
    exact ⟨fun _ => List.map_subset Edge.id hquiet.edges, hquiet.supply⟩
  cases r with
  | connect d =>
    show Carried _ s (s.connect d).2
    rw [connect_of_reconnecting hs]
    exact carried_reconnect rfl s edge d
  | reconnectStart other => cases other <;> exact ⟨fun _ => List.Subset.refl _, rfl⟩
  | reconnect other d => exact carried_reconnect rfl s other d
  | reconnectEnd => exact ⟨fun _ => List.Subset.refl _, rfl⟩
  | load v => exact carried_load rfl s v
  | openNamed name =>
    show Carried _ s (s.openNamed storage store name).2
    unfold openNamed
    split
    · exact carried_load rfl s _
    · exact ⟨fun _ => List.Subset.refl _, rfl⟩
  | _ => exact absurd rfl hr

theorem eq_reconnecting {gesture : Gesture} (h : gesture.phase = .reconnecting) :
    gesture = .reconnecting gesture.edge := by
  obtain ⟨phase, edge⟩ := gesture
  cases h
  rfl

/-- No edge is new as long as a drag goes on. -/
theorem edgeIds_run_subset (more : List Request)
    (h : ∀ done, done <+: more → (run storage here done).1.gesture.phase = .reconnecting) :
    (run storage here more).1.graph.edgeIds ⊆ here.1.graph.edgeIds := by
  induction more using List.reverseRecOn with
  | nil => exact List.Subset.refl _
  | append_singleton before r ih =>
    have hbefore := h before (List.prefix_append before [r])
    have hafter := h (before ++ [r]) List.prefix_rfl
    have hstep := carried_next storage (run storage here before).2 (eq_reconnecting hbefore) r
    rw [run_concat] at hafter ⊢
    have hkept := ih fun done hd => h done (hd.trans (List.prefix_append before [r]))
    exact fun id hid => hkept (hstep.edges hafter hid)

/-- A session in which an edge is dragged after some requests. A signal to connect moves the edge
that is remembered, if there is one; until the drag is over no edge is new, and no identifier is
taken but for an agent. -/
structure Dragging (storage : Storage σ) (requests : List Request) (here : Session × σ) :
    Prop where
  told : (requests.filterMap Request.told?).getLast? = some here.1.gesture.edge
  moves : ∀ d, here.1.connect d = here.1.reconnect here.1.gesture.edge d
  ignores : here.1.gesture.edge.bind here.1.graph.edge? = none →
    ∀ d, here.1.connect d = (.ok .done, here.1)
  supply : ∀ r, (next storage here r).1.supply = here.1.supply.spentIf r.placesAgent
  edges : ∀ more,
    (∀ done, done <+: more → (run storage here done).1.gesture.phase = .reconnecting) →
      (run storage here more).1.graph.edgeIds ⊆ here.1.graph.edgeIds

theorem graph_of_picksUp (h : r.picksUp = true) :
    (next storage here r).1.graph = here.1.graph := by
  unfold Request.picksUp at h
  split at h
  · rfl
  · rfl
  · cases h

theorem drag_of_run (storage : Storage σ) (s : Session) (store : σ) (requests : List Request)
    (hi : s.gesture = .idle) :
    let here := run storage (s, store) requests
    (here.1.gesture.phase = .reconnecting ↔ InFlight storage (s, store) requests) ∧
      (here.1.gesture.phase = .idle → here.1.gesture.edge = none) ∧
      (∀ r, r.picksUp = true → (next storage here r).1.graph = here.1.graph) ∧
      (here.1.gesture.phase = .reconnecting → Dragging storage requests here) := by
  intro here
  rcases gesture_run storage (s, store) requests hi with
    ⟨hidle, hground⟩ | ⟨edge, hdrag, hflight, hlast⟩
  · have hg : here.1.gesture = .idle := hidle
    refine ⟨by simp [hg, hground, Gesture.idle], fun _ => by rw [hg]; rfl,
      fun r hr => graph_of_picksUp hr, fun hphase => ?_⟩
    rw [hg] at hphase
    cases hphase
  · have hg : here.1.gesture = .reconnecting edge := hdrag
    refine ⟨by simp [hg, hflight, Gesture.reconnecting], fun hphase => ?_,
      fun r hr => graph_of_picksUp hr, fun _ => ?_⟩
    · rw [hg] at hphase
      cases hphase
    · have he : here.1.gesture.edge = edge := congrArg Gesture.edge hg
      rw [← he] at hlast hg
      exact
        { told := hlast
          moves := connect_of_reconnecting hg
          ignores := fun hunknown d =>
            (connect_of_reconnecting hg d).trans (reconnect_of_unknown hunknown hg d)
          supply := fun r => (carried_next storage here.2 hg r).supply
          edges := fun more hmore => edgeIds_run_subset more hmore }

/-! ## A drag of an edge that is gone -/

/-- An edge is drawn and picked up, a load fails meanwhile, the edge is removed, and a stray signal
tells of another edge that is not there. -/
def sampleDrag : List Request :=
  [.addNode Graph.sampleStart, .addNode Graph.sampleFinish,
    .connect (Ends.drop ⟨"s", none, "e", none⟩), .reconnectStart (.str "edge-000000000001"),
    .load .null, .removeEdge "edge-000000000001",
    .reconnect (some "gone") (Ends.drop ⟨"s", none, "e", none⟩)]

theorem drag_of_sampleDrag :
    ({ settings := {} } : Session).gesture = .idle ∧
      InFlight forgetful ({ settings := {} }, ()) sampleDrag ∧
      (run forgetful ({ settings := {} }, ()) sampleDrag).1.gesture = .reconnecting (some "gone") ∧
      ∀ d, (run forgetful ({ settings := {} }, ()) sampleDrag).1.connect d =
        (.ok .done, (run forgetful ({ settings := {} }, ()) sampleDrag).1) := by
  have hflight : InFlight forgetful ({ settings := {} }, ()) sampleDrag :=
    ⟨sampleDrag.take 3, _, _, rfl, rfl, rfl⟩
  obtain ⟨hphase, -, -, hdrag⟩ := drag_of_run forgetful { settings := {} } () sampleDrag rfl
  have hreconnecting := hphase.2 hflight
  have hheld := hdrag hreconnecting
  have hedge := Option.some.inj hheld.told
  have hgone : (run forgetful ({ settings := {} }, ()) sampleDrag).1.graph.edge? "gone" = none := by
    decide
  refine ⟨rfl, hflight, ?_, hheld.ignores (hedge ▸ hgone)⟩
  rw [eq_reconnecting hreconnecting, ← hedge]
  rfl

end Session
end WorkflowCanvas
