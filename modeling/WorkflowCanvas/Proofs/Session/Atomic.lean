import WorkflowCanvas.Proofs.Attempt
import WorkflowCanvas.Proofs.Session.Run
import WorkflowCanvas.Proofs.Workflow.Archived

/-! Requests as a whole or not at all. Main statement: wherever a run has come to, a request that
fails leaves the graph and the gesture as they were, and the metadata too unless it is a save that
was exported and not written; one that succeeds at compiling, exporting or loading changes what it
is for. -/
namespace WorkflowCanvas
set_option autoImplicit false

/-- The metadata that a save could be exported with, whatever the storage makes of it. -/
def Request.exportedWith? (s : Session) : Request → Option Metadata
  | .save source => (s.exported source true).toOption.map Prod.fst
  | _ => none

namespace Session
variable {σ : Type} {s t : Session} {store : σ} {r : Request} {failure : Failure} {answer : Answer}
  {source : Option MetadataSource}

/-! ## Requests that fail -/

/-- A later session in which nothing has changed but identifiers that were taken, and metadata. -/
structure Untouched (s t : Session) (metadata : Option Metadata) : Prop where
  settings : t.settings = s.settings
  catalog : t.catalog = s.catalog
  graph : t.graph = s.graph
  gesture : t.gesture = s.gesture
  metadata : t.metadata = metadata

theorem Untouched.refl (s : Session) : Untouched s s s.metadata := ⟨rfl, rfl, rfl, rfl, rfl⟩

/-- What is done with a result once there is one; without it nothing is done. -/
def settle {α : Type} (s : Session) (result : Except Failure α) (done : α → Answer × Session) :
    Outcome :=
  match result with
  | .ok a => (.ok (done a).1, (done a).2)
  | .error failure => (.error failure, s)

section Settle
variable {α : Type} {result : Except Failure α} {done : α → Answer × Session} {outcome : Outcome}

theorem eq_of_settle (he : outcome = s.settle result done) (h : outcome.1 = .error failure) :
    outcome.2 = s := by
  subst he
  cases result with
  | ok a => cases h
  | error why => rfl

theorem exists_of_settle (he : outcome = s.settle result done) (h : outcome.1 = .ok answer) :
    ∃ a, result = .ok a ∧ answer = (done a).1 ∧ outcome.2 = (done a).2 := by
  subst he
  cases result with
  | ok a =>
    cases h
    exact ⟨a, rfl, rfl, rfl⟩
  | error why => cases h

end Settle

theorem edited_eq (s : Session) (result : Except Failure Graph) (answering : Graph → Answer) :
    s.edited result answering = s.settle result fun g => (answering g, { s with graph := g }) := by
  cases result <;> rfl

theorem reconnectStart_eq (s : Session) (edge : Json) : s.reconnectStart edge =
    s.settle (s.gesture.start edge).orFail fun gesture => (.done, { s with gesture }) := by
  unfold reconnectStart
  cases (s.gesture.start edge).orFail <;> rfl

theorem reconnect_eq (s : Session) (edge : Option String) (d : Drop) : s.reconnect edge d =
    s.settle (Graph.orFault (s.graph.reconnect s.settings.connection edge d)) fun g =>
      (.done, { s with graph := g, gesture := s.gesture.remember edge }) := by
  unfold reconnect
  cases s.graph.reconnect s.settings.connection edge d <;> rfl

theorem compile_eq (s : Session) (source : Option MetadataSource) : s.compile source =
    s.settle (s.compiled source) fun d =>
      (.workflow d, { s with metadata := some d.metadata }) := by
  unfold compile
  cases s.compiled source <;> rfl

theorem exporting_eq (s : Session) (source : Option MetadataSource) (withSnapshot : Bool) :
    s.exporting source withSnapshot = s.settle (s.exported source withSnapshot) fun found =>
      (.document found.2, { s with metadata := some found.1 }) := by
  unfold exporting
  cases s.exported source withSnapshot <;> rfl

theorem load_eq (s : Session) (v : Json) :
    s.load v = s.settle (Archive.load s.settings.layout v) fun l => (.done, s.loaded l) := by
  unfold load
  cases Archive.load s.settings.layout v <;> rfl

theorem openNamed_eq (storage : Storage σ) (s : Session) (store : σ) (name : String) :
    s.openNamed storage store name =
      s.settle (storage.load store name >>= Archive.loadFields s.settings.layout) fun l =>
        (.done, s.loaded l) := by
  unfold openNamed
  cases storage.load store name with
  | error failure => rfl
  | ok fields => exact load_eq s (.obj fields)

/-- Whatever else is taken from the supply stays taken. -/
theorem untouched_edited {supply : Supply} {result : Except Failure Graph}
    {answering : Graph → Answer}
    (h : (Session.edited { s with supply } result answering).1 = .error failure) :
    Untouched s (Session.edited { s with supply } result answering).2 s.metadata := by
  rw [eq_of_settle (edited_eq _ result answering) h]
  exact ⟨rfl, rfl, rfl, rfl, rfl⟩

/-- A save fails before the export is done, or when the storage refuses what was exported. -/
theorem save_cases (storage : Storage σ) (s : Session) (store : σ)
    (source : Option MetadataSource) :
    (∃ why, s.exported source true = .error why ∧
        (s.save storage store source).1 = (.error why, s)) ∨
      ∃ m fields, s.exported source true = .ok (m, fields) ∧
        (s.save storage store source).1 = ((storage.save store m.name.text fields).1.map .place,
          { s with metadata := some m }) := by
  unfold save
  cases he : s.exported source true with
  | error why => exact .inl ⟨why, rfl, rfl⟩
  | ok exported => exact .inr ⟨exported.1, exported.2, rfl, rfl⟩

theorem untouched_save (storage : Storage σ) (s : Session) (store : σ)
    (source : Option MetadataSource) : Untouched s (s.save storage store source).1.2
      (((Request.save source).exportedWith? s).or s.metadata) := by
  rcases save_cases storage s store source with ⟨why, he, hsave⟩ | ⟨m, fields, he, hsave⟩
  · rw [hsave, Request.exportedWith?, he]
    exact .refl s
  · rw [hsave, Request.exportedWith?, he]
    exact ⟨rfl, rfl, rfl, rfl, rfl⟩

theorem untouched_handle (storage : Storage σ)
    (h : (s.handle storage store r).1.1 = .error failure) :
    Untouched s (s.handle storage store r).1.2 ((r.exportedWith? s).or s.metadata) := by
  have hsame : (s.handle storage store r).1.2 = s → r.exportedWith? s = none →
      Untouched s (s.handle storage store r).1.2 ((r.exportedWith? s).or s.metadata) := by
    intro hs hnone
    rw [hs, hnone]
    exact .refl s
  cases r with
  | connect d => exact untouched_edited h
  | addAgent agent x y => exact untouched_edited h
  | reconnectStart edge => exact hsame (eq_of_settle (reconnectStart_eq s edge) h) rfl
  | reconnect edge d => exact hsame (eq_of_settle (reconnect_eq s edge d) h) rfl
  | addNode n => exact hsame (eq_of_settle (edited_eq s _ _) h) rfl
  | updateData id changes => exact hsame (eq_of_settle (edited_eq s _ _) h) rfl
  | moveNode id x y => exact hsame (eq_of_settle (edited_eq s _ _) h) rfl
  | compile source => exact hsame (eq_of_settle (compile_eq s source) h) rfl
  | exporting source withSnapshot =>
    exact hsame (eq_of_settle (exporting_eq s source withSnapshot) h) rfl
  | load v => exact hsame (eq_of_settle (load_eq s v) h) rfl
  | openNamed name => exact hsame (eq_of_settle (openNamed_eq storage s store name) h) rfl
  | save source => exact untouched_save storage s store source
  | reconnectEnd | removeNode | removeEdge | validate | snapshot => cases h

/-! ## Requests that succeed -/

theorem compiled_eq_ok {d : Definition} (h : s.compiled source = .ok d) :
    s.metadataFor source = .ok d.metadata ∧ s.graph.compile d.metadata = .ok d := by
  obtain ⟨m, hm, h⟩ := Attempt.bind_eq_ok_iff.1 h
  have hc : s.graph.compile m = .ok d := Graph.orFault_eq_ok_iff.1 h
  obtain rfl : d.metadata = m := congrArg Definition.metadata (Graph.compile_eq_ok_iff.1 hc).2
  exact ⟨hm, hc⟩

theorem compile_of_ok (h : (s.compile source).1 = .ok answer) :
    ∃ d, answer = .workflow d ∧ s.metadataFor source = .ok d.metadata ∧
      s.graph.compile d.metadata = .ok d ∧
        (s.compile source).2 = { s with metadata := some d.metadata } := by
  obtain ⟨d, hd, ha, hs⟩ := exists_of_settle (compile_eq s source) h
  obtain ⟨hm, hc⟩ := compiled_eq_ok hd
  exact ⟨d, ha, hm, hc, hs⟩

theorem exported_eq_ok {withSnapshot : Bool} {m : Metadata} {fields : Fields}
    (h : s.exported source withSnapshot = .ok (m, fields)) :
    s.metadataFor source = .ok m ∧ Archive.dump s.graph m withSnapshot = .ok fields := by
  obtain ⟨found, hm, h⟩ := Attempt.bind_eq_ok_iff.1 h
  cases hd : Archive.dump s.graph found withSnapshot with
  | error fault =>
    rw [hd] at h
    cases h
  | ok written =>
    rw [hd] at h
    cases h
    exact ⟨hm, hd⟩

theorem exporting_of_ok {withSnapshot : Bool}
    (h : (s.exporting source withSnapshot).1 = .ok answer) :
    ∃ m fields, answer = .document fields ∧ s.metadataFor source = .ok m ∧
      Archive.dump s.graph m withSnapshot = .ok fields ∧
        (s.exporting source withSnapshot).2 = { s with metadata := some m } := by
  obtain ⟨found, he, ha, hs⟩ := exists_of_settle (exporting_eq s source withSnapshot) h
  obtain ⟨hm, hd⟩ := exported_eq_ok he
  exact ⟨found.1, found.2, ha, hm, hd, hs⟩

theorem load_of_ok {v : Json} (h : (s.load v).1 = .ok answer) :
    ∃ l, Archive.load s.settings.layout v = .ok l ∧ (s.load v).2 = s.loaded l := by
  obtain ⟨l, hl, -, hs⟩ := exists_of_settle (load_eq s v) h
  exact ⟨l, hl, hs⟩

theorem openNamed_of_ok {storage : Storage σ} {name : String}
    (h : (s.openNamed storage store name).1 = .ok answer) :
    ∃ fields l, storage.load store name = .ok fields ∧
      Archive.loadFields s.settings.layout fields = .ok l ∧
        (s.openNamed storage store name).2 = s.loaded l := by
  obtain ⟨l, hl, -, hs⟩ := exists_of_settle (openNamed_eq storage s store name) h
  obtain ⟨fields, hfields, hl⟩ := Attempt.bind_eq_ok_iff.1 hl
  exact ⟨fields, l, hfields, hl, hs⟩

/-! ## Requests of a run -/

/-- What a request leaves that fails: a save that was exported has failed for what the storage
said, and is remembered. -/
theorem metadata_of_error (storage : Storage σ)
    (h : (s.handle storage store r).1.1 = .error failure) :
    ((s.handle storage store r).1.2.metadata = s.metadata ∧ r.exportedWith? s = none) ∨
      ∃ source m fields, r = .save source ∧ s.exported source true = .ok (m, fields) ∧
        (storage.save store m.name.text fields).1 = .error failure ∧
          (s.handle storage store r).1.2.metadata = some m := by
  have hmetadata := (untouched_handle storage h).metadata
  cases hr : r.exportedWith? s with
  | none => exact .inl ⟨by rw [hmetadata, hr]; rfl, rfl⟩
  | some m =>
    cases r with
    | save source =>
      rcases save_cases storage s store source with ⟨why, he, -⟩ | ⟨found, fields, he, hsave⟩
      · rw [Request.exportedWith?, he] at hr
        cases hr
      · have houtcome : (s.handle storage store (.save source)).1 = _ := hsave
        rw [houtcome] at h
        refine .inr ⟨source, found, fields, rfl, he, ?_, by rw [houtcome]⟩
        cases hw : (storage.save store found.name.text fields).1 with
        | ok path =>
          rw [hw] at h
          cases h
        | error why =>
          rw [hw] at h
          cases h
          rfl
    | _ => cases hr

theorem failed_or_done (storage : Storage σ) (start : Session × σ) (requests : List Request)
    (r : Request) :
    let here := run storage start requests
    let outcome := (here.1.handle storage here.2 r).1
    (∀ failure, outcome.1 = .error failure →
      outcome.2.graph = here.1.graph ∧ outcome.2.gesture = here.1.gesture ∧
        ((outcome.2.metadata = here.1.metadata ∧ r.exportedWith? here.1 = none) ∨
          ∃ source m fields, r = .save source ∧ here.1.exported source true = .ok (m, fields) ∧
            (storage.save here.2 m.name.text fields).1 = .error failure ∧
              outcome.2.metadata = some m)) ∧
    ∀ answer, outcome.1 = .ok answer →
      (∀ source, r = .compile source → ∃ d, answer = .workflow d ∧
        here.1.metadataFor source = .ok d.metadata ∧ here.1.graph.compile d.metadata = .ok d ∧
          outcome.2 = { here.1 with metadata := some d.metadata }) ∧
      (∀ source withSnapshot, r = .exporting source withSnapshot → ∃ m fields,
        answer = .document fields ∧ here.1.metadataFor source = .ok m ∧
          Archive.dump here.1.graph m withSnapshot = .ok fields ∧
            outcome.2 = { here.1 with metadata := some m }) ∧
      (∀ v, r = .load v → ∃ l, Archive.load here.1.settings.layout v = .ok l ∧
        outcome.2 =
          { here.1 with graph := l.graph, metadata := some l.metadata, gesture := .idle }) ∧
      ∀ name, r = .openNamed name → ∃ fields l, storage.load here.2 name = .ok fields ∧
        Archive.loadFields here.1.settings.layout fields = .ok l ∧
          outcome.2 =
            { here.1 with graph := l.graph, metadata := some l.metadata, gesture := .idle } := by
  intro here outcome
  constructor
  · intro failure h
    have hkept := untouched_handle storage h
    exact ⟨hkept.graph, hkept.gesture, metadata_of_error storage h⟩
  · intro answer h
    refine ⟨?_, ?_, ?_, ?_⟩
    · rintro source rfl
      exact compile_of_ok h
    · rintro source withSnapshot rfl
      exact exporting_of_ok h
    · rintro v rfl
      exact load_of_ok h
    · rintro name rfl
      exact openNamed_of_ok h

/-! ## A session whose storage is full -/

def full : Failure := .fault (.storage "No space left" none)

/-- A storage that holds one workflow and takes no other. -/
def fullStorage : Storage Unit :=
  ⟨fun store _ _ => (.error full, store), fun _ _ => .ok Rebuild.sampleWorkflow.payload⟩

/-- A graph that can be compiled, in the middle of a drag. -/
def bench (settings : Settings) : Session where
  settings := settings
  graph := Archive.drawn
  gesture := .reconnecting (some "above")

def sampleSource : Option MetadataSource := some (.finished Graph.sampleMetadata)

theorem compile_bench :
    Archive.drawn.compile Graph.sampleMetadata = .ok ⟨Graph.sampleMetadata, Archive.drawn.steps⟩ :=
  Archive.drawn_line.compile_eq _

theorem exported_bench :
    ∃ fields, (bench {}).exported sampleSource true = .ok (Graph.sampleMetadata, fields) := by
  obtain ⟨fields, hfields⟩ : ∃ fields,
      Archive.dump Archive.drawn Graph.sampleMetadata true = .ok fields :=
    ⟨_, Archive.dump_eq_ok_iff.2 ⟨_, compile_bench, rfl⟩⟩
  refine ⟨fields, ?_⟩
  show (Graph.orFault (Archive.dump Archive.drawn Graph.sampleMetadata true)).map
    (fun fields => (Graph.sampleMetadata, fields)) = _
  rw [hfields]
  rfl

theorem failed_or_done_bench :
    let here := run fullStorage (bench {}, ()) [.load .null]
    (∃ outcome, (here.1.handle fullStorage here.2 (.save sampleSource)).1 = outcome ∧
      outcome.1 = .error full ∧ outcome.2.graph = Archive.drawn ∧
        outcome.2.gesture = .reconnecting (some "above") ∧
          outcome.2.metadata = some Graph.sampleMetadata) ∧
    (∃ outcome, (here.1.handle fullStorage here.2 (.openNamed "review")).1 = outcome ∧
      outcome.1 = .ok .done ∧ ∃ l : Archive.Loaded, outcome.2 =
        { bench {} with graph := l.graph, metadata := some l.metadata, gesture := .idle }) := by
  intro here
  obtain ⟨fields, he⟩ := exported_bench
  have hsave : (here.1.handle fullStorage here.2 (.save sampleSource)).1.1 = .error full := by
    show ((bench {}).save fullStorage () sampleSource).1.1 = .error full
    rw [save, he]
    rfl
  obtain ⟨g, -, hload⟩ := Archive.loadFields_payload {} Rebuild.sampleWorkflow
  have hopen : (here.1.handle fullStorage here.2 (.openNamed "review")).1.1 = .ok .done := by
    show ((bench {}).load (.obj Rebuild.sampleWorkflow.payload)).1 = .ok .done
    have hloaded : Archive.load (bench {}).settings.layout
        (.obj Rebuild.sampleWorkflow.payload) = _ := hload
    rw [load, hloaded]
  obtain ⟨hgraph, hgesture, hmetadata⟩ :=
    (failed_or_done fullStorage (bench {}, ()) [.load .null] (.save sampleSource)).1 full hsave
  refine ⟨⟨_, rfl, hsave, hgraph, hgesture, ?_⟩, ⟨_, rfl, hopen, ?_⟩⟩
  · rcases hmetadata with ⟨-, hnone⟩ | ⟨source, m, written, hr, hm, -, hmetadata⟩
    · have hsome : (Request.save sampleSource).exportedWith? (bench {}) =
          some Graph.sampleMetadata := by
        rw [Request.exportedWith?, he]
        rfl
      cases hsome.symm.trans hnone
    · cases hr
      cases he.symm.trans hm
      exact hmetadata
  · obtain ⟨-, -, -, hopened⟩ :=
      (failed_or_done fullStorage (bench {}, ()) [.load .null] (.openNamed "review")).2 _ hopen
    obtain ⟨-, l, -, -, hl⟩ := hopened "review" rfl
    exact ⟨l, hl⟩

/-! ## Requests that fail one after another -/

/-- Requests that all fail, each where those before it have left the session. -/
inductive Failing (storage : Storage σ) : Session × σ → List Request → Prop
  | nil {here : Session × σ} : Failing storage here []
  | cons {here : Session × σ} {r : Request} {rest : List Request} {failure : Failure}
      (h : (here.1.handle storage here.2 r).1.1 = .error failure)
      (hrest : Failing storage (next storage here r) rest) : Failing storage here (r :: rest)

theorem untouched_of_failing {storage : Storage σ} {here : Session × σ} {requests : List Request}
    (h : Failing storage here requests) (hsave : ∀ source, .save source ∉ requests) :
    Untouched here.1 (run storage here requests).1 here.1.metadata := by
  induction h with
  | nil => exact .refl _
  | @cons here r rest failure h _ ih =>
    have hnone : r.exportedWith? here.1 = none := by
      cases r with
      | save source => exact absurd List.mem_cons_self (hsave source)
      | _ => rfl
    have hone := untouched_handle storage h
    rw [hnone, Option.none_or] at hone
    have hrest := ih fun source hs => hsave source (List.mem_cons_of_mem _ hs)
    exact
      { settings := hrest.settings.trans hone.settings
        catalog := hrest.catalog.trans hone.catalog
        graph := hrest.graph.trans hone.graph
        gesture := hrest.gesture.trans hone.gesture
        metadata := hrest.metadata.trans hone.metadata }

end Session
end WorkflowCanvas
