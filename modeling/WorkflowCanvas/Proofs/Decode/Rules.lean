import Mathlib.Data.List.Nodup
import Mathlib.Data.List.Pairwise
import WorkflowCanvas.Decode.Checked

/-! What records and lists ask of their parts, and where a value falls short of it. A record is told
by a rule for each of its fields, and the places of its faults come in the order of the rules and of
the items of lists. Main statements: where no two fields share a name, the faults in a field are
those that its own rule finds, and likewise for the items of a list; and no place is listed
twice. -/
namespace WorkflowCanvas
set_option autoImplicit false

/-- The steps that lead from a value to a part of it. -/
abbrev Place := List Segment

/-! ## Scalars and lists -/

/-- A text of which a test holds. -/
def Json.isTextWhere (test : String → Bool) : Json → Bool
  | .str s => test s
  | _ => false

def Json.isText : Json → Bool := Json.isTextWhere fun _ => true

/-- Null, or a value of which a test holds. -/
def Json.isNullOr (test : Json → Bool) : Json → Bool
  | .null => true
  | v => test v

/-- A scalar is at fault as a whole. -/
def scalarFaults (valid : Json → Bool) (v : Json) : List Place := if valid v then [] else [[]]

/-- A list is at fault wherever its items are, in their order. -/
def listFaults (faults : Json → List Place) : Json → List Place
  | .arr items => items.zipIdx.flatMap fun p => (faults p.1).map (.item p.2 :: ·)
  | _ => [[]]

/-! ## Fields -/

/-- What a record asks of a field: it has two names, has to be there or may be left out, and each
value for it is at fault at some places, or at none. -/
structure Rule where
  key : String
  inner : String
  needed : Bool
  faults : Json → List Place

namespace Rule
variable (r t : Rule) (fields : Fields)

/-- The name under which a record has the field; a field that is missed is missed under its
key. -/
def nameIn : String := ((Checked.find? fields r.key r.inner).map Prod.fst).getD r.key

/-- Where the field of a record is at fault, from the field on. -/
def faultsIn : List Place :=
  match Checked.find? fields r.key r.inner with
  | some (_, v) => r.faults v
  | none => if r.needed then [[]] else []

def places : List Place := (r.faultsIn fields).map (.field (r.nameIn fields) :: ·)

/-- A field that has to be there and is not. -/
def Missing : Prop := r.needed = true ∧ Checked.find? fields r.key r.inner = none

/-- A field with a value that is at fault. -/
def Invalid : Prop := ∃ found v, Checked.find? fields r.key r.inner = some (found, v) ∧
  r.faults v ≠ []

end Rule

/-- A record is at fault wherever its fields are, in the order of the rules for them. -/
def recordFaults (rules : List Rule) : Json → List Place
  | .obj fields => rules.flatMap (·.places fields)
  | _ => [[]]

/-! ## Faults of one part -/

/-- Where all elements but one yield nothing, that one yields all. -/
theorem flatMap_eq_of_only {α β : Type} {l : List α} {f : α → List β} {a : α} (hl : l.Nodup)
    (ha : a ∈ l) (hother : ∀ b ∈ l, b ≠ a → f b = []) : l.flatMap f = f a := by
  obtain ⟨front, back, rfl⟩ := List.append_of_mem ha
  obtain ⟨-, hback, hfront⟩ := List.nodup_append.1 hl
  have hfront : front.flatMap f = [] := by
    refine List.flatMap_eq_nil_iff.2 fun b hb => hother b (by simp [hb]) ?_
    exact hfront b hb a List.mem_cons_self
  have hback : back.flatMap f = [] := by
    refine List.flatMap_eq_nil_iff.2 fun b hb => hother b (by simp [hb]) ?_
    rintro rfl
    exact (List.nodup_cons.1 hback).1 hb
  rw [List.flatMap_append, List.flatMap_cons, hfront, hback, List.nil_append, List.append_nil]

theorem filter_nil_isPrefixOf (places : List Place) :
    places.filter ([] : Place).isPrefixOf = places :=
  List.filter_eq_self.2 fun _ _ => List.isPrefixOf_nil_left

/-- The places from some point on, behind the step to it. -/
theorem filter_isPrefixOf_map (s : Segment) (way : Place) (places : List Place) :
    (places.map (s :: ·)).filter (s :: way).isPrefixOf =
      (places.filter way.isPrefixOf).map (s :: ·) := by
  rw [List.filter_map]
  congr 1
  refine List.filter_congr fun place _ => ?_
  simp

theorem filter_isPrefixOf_map_of_ne {s t : Segment} (h : s ≠ t) (way : Place)
    (places : List Place) : (places.map (t :: ·)).filter (s :: way).isPrefixOf = [] := by
  refine List.filter_eq_nil_iff.2 fun place hplace => ?_
  obtain ⟨rest, -, rfl⟩ := List.mem_map.1 hplace
  simp [h]

section Items
variable (faults : Json → List Place) (items : List Json)

theorem nodup_map_snd_zipIdx : (items.zipIdx.map Prod.snd).Nodup := by
  rw [List.zipIdx_map_snd]
  exact List.nodup_range'

/-- The faults of a list below one of its items are those of the item. -/
theorem filter_listFaults {i : Nat} {v : Json} (h : items[i]? = some v) (way : Place) :
    (listFaults faults (.arr items)).filter (.item i :: way).isPrefixOf =
      ((faults v).filter way.isPrefixOf).map (.item i :: ·) := by
  have hmem : (v, i) ∈ items.zipIdx := List.mem_zipIdx_iff_getElem?.2 h
  have hnodup := List.Nodup.of_map _ (nodup_map_snd_zipIdx items)
  rw [listFaults, List.filter_flatMap, flatMap_eq_of_only hnodup hmem, filter_isPrefixOf_map]
  rintro ⟨w, j⟩ hw hne
  refine filter_isPrefixOf_map_of_ne (fun hij => hne ?_) way _
  obtain rfl : i = j := by simpa using hij
  have hwv := List.mem_zipIdx_iff_getElem?.1 hw
  rw [h] at hwv
  cases hwv
  rfl

theorem filter_listFaults_of_none {i : Nat} (h : items[i]? = none) (way : Place) :
    (listFaults faults (.arr items)).filter (.item i :: way).isPrefixOf = [] := by
  rw [listFaults, List.filter_flatMap, List.flatMap_eq_nil_iff]
  rintro ⟨w, j⟩ hw
  refine filter_isPrefixOf_map_of_ne (fun hij => ?_) way _
  obtain rfl : i = j := by simpa using hij
  have hw := List.mem_zipIdx_iff_getElem?.1 hw
  rw [h] at hw
  cases hw

end Items

/-! ## Fields with names of their own -/

namespace Rule
variable {r t : Rule} {rules : List Rule} (fields : Fields)

/-- Rules for fields that share no name. -/
def Apart (r t : Rule) : Prop :=
  r.key ≠ t.key ∧ r.key ≠ t.inner ∧ r.inner ≠ t.key ∧ r.inner ≠ t.inner

instance : Std.Symm Apart := ⟨fun _ _ h => ⟨h.1.symm, h.2.2.1.symm, h.2.1.symm, h.2.2.2.symm⟩⟩

theorem nodup_of_apart (h : rules.Pairwise Apart) : rules.Nodup :=
  h.imp fun happart heq => happart.1 (congrArg key heq)

/-- Any two different rules of a record are for fields that share no name. -/
theorem apart_of_mem (h : rules.Pairwise Apart) (hr : r ∈ rules) (ht : t ∈ rules) (hne : t ≠ r) :
    Apart r t := h.forall hr ht hne.symm

/-- Whether a place is in the field, under either of its names. -/
def owns (r : Rule) : Place → Bool
  | .field name :: _ => name == r.key || name == r.inner
  | _ => false

theorem nameIn_eq_or (r : Rule) : r.nameIn fields = r.key ∨ r.nameIn fields = r.inner := by
  rw [nameIn, Checked.find?]
  split
  · exact .inl rfl
  · cases fields.get? r.inner
    · exact .inl rfl
    · exact .inr rfl

theorem nameIn_of_same (h : r.key = r.inner) : r.nameIn fields = r.key := by
  rcases r.nameIn_eq_or fields with hname | hname
  · exact hname
  · rw [hname, h]

theorem nameIn_ne (h : Apart r t) : r.nameIn fields ≠ t.nameIn fields := by
  obtain ⟨hkk, hki, hik, hii⟩ := h
  rcases r.nameIn_eq_or fields with hr | hr <;> rcases t.nameIn_eq_or fields with ht | ht <;>
    rw [hr, ht] <;> assumption

theorem filter_owns_places (r : Rule) : (r.places fields).filter r.owns = r.places fields := by
  refine List.filter_eq_self.2 fun place hplace => ?_
  obtain ⟨rest, -, rfl⟩ := List.mem_map.1 hplace
  rcases r.nameIn_eq_or fields with hname | hname <;> simp [owns, hname]

theorem filter_owns_places_of_apart (h : Apart r t) : (t.places fields).filter r.owns = [] := by
  obtain ⟨hkk, hki, hik, hii⟩ := h
  refine List.filter_eq_nil_iff.2 fun place hplace => ?_
  obtain ⟨rest, -, rfl⟩ := List.mem_map.1 hplace
  rcases t.nameIn_eq_or fields with hname | hname <;>
    simp [owns, hname, hkk.symm, hki.symm, hik.symm, hii.symm]

/-- The faults of a record in one of its fields are those that the rule for it finds. -/
theorem filter_owns (h : rules.Pairwise Apart) (hr : r ∈ rules) :
    (recordFaults rules (.obj fields)).filter r.owns = r.places fields := by
  rw [recordFaults, List.filter_flatMap, flatMap_eq_of_only (nodup_of_apart h) hr,
    r.filter_owns_places]
  exact fun t ht hne => filter_owns_places_of_apart fields (apart_of_mem h hr ht hne)

/-- The same below the field, on the way to some part of it. -/
theorem filter_recordFaults (h : rules.Pairwise Apart) (hr : r ∈ rules) (way : Place) :
    (recordFaults rules (.obj fields)).filter
        (.field (r.nameIn fields) :: way : Place).isPrefixOf =
      ((r.faultsIn fields).filter way.isPrefixOf).map (.field (r.nameIn fields) :: ·) := by
  rw [recordFaults, List.filter_flatMap, flatMap_eq_of_only (nodup_of_apart h) hr, places,
    filter_isPrefixOf_map]
  intro t ht hne
  refine filter_isPrefixOf_map_of_ne (fun heq => ?_) way _
  exact nameIn_ne fields (apart_of_mem h hr ht hne) (Segment.field.inj heq)

theorem mem_recordFaults_iff {place : Place} : place ∈ recordFaults rules (.obj fields) ↔
    ∃ r ∈ rules, ∃ rest ∈ r.faultsIn fields, .field (r.nameIn fields) :: rest = place := by
  simp only [recordFaults, List.mem_flatMap, places, List.mem_map]

theorem faultsIn_ne_nil_iff : r.faultsIn fields ≠ [] ↔ r.Missing fields ∨ r.Invalid fields := by
  cases hfound : Checked.find? fields r.key r.inner with
  | none => cases hneeded : r.needed <;> simp [faultsIn, Missing, Invalid, hfound, hneeded]
  | some found =>
    obtain ⟨name, v⟩ := found
    simp [faultsIn, Missing, Invalid, hfound]

/-- A fault somewhere in a field is told under its name, and nothing else is. -/
theorem exists_recordFaults_iff {v : Json} {name : String} :
    (∃ place ∈ recordFaults rules v, [.field name] <+: place) ↔
      ∃ fields, v = .obj fields ∧
        ∃ r ∈ rules, r.nameIn fields = name ∧ (r.Missing fields ∨ r.Invalid fields) := by
  constructor
  · rintro ⟨place, hplace, hprefix⟩
    cases v with
    | obj fields =>
      obtain ⟨r, hr, rest, hrest, rfl⟩ := (mem_recordFaults_iff fields).1 hplace
      obtain ⟨heq, -⟩ := List.cons_prefix_cons.1 hprefix
      refine ⟨fields, rfl, r, hr, (Segment.field.inj heq).symm, ?_⟩
      exact (faultsIn_ne_nil_iff fields).1 (List.ne_nil_of_mem hrest)
    | _ =>
      -- what is no object is at fault as a whole, below no name
      obtain rfl := List.mem_singleton.1 hplace
      cases List.prefix_nil.1 hprefix
  · rintro ⟨fields, rfl, r, hr, rfl, hfault⟩
    obtain ⟨rest, hrest⟩ := List.exists_mem_of_ne_nil _ ((faultsIn_ne_nil_iff fields).2 hfault)
    exact ⟨_, (mem_recordFaults_iff fields).2 ⟨r, hr, rest, hrest, rfl⟩, rest, rfl⟩

/-- A field that is at fault as a whole if at all. -/
theorem faultsIn_eq_whole (h : ∀ found v, Checked.find? fields r.key r.inner = some (found, v) →
    r.faults v ≠ [] → r.faults v = [[]]) (hfault : r.Missing fields ∨ r.Invalid fields) :
    r.faultsIn fields = [[]] := by
  rcases hfault with ⟨hneeded, hfound⟩ | ⟨found, v, hfound, hne⟩
  · simp [faultsIn, hfound, hneeded]
  · simp only [faultsIn, hfound, h found v hfound hne]

end Rule

theorem scalarFaults_eq_whole {valid : Json → Bool} {v : Json} (h : scalarFaults valid v ≠ []) :
    scalarFaults valid v = [[]] := by
  rw [scalarFaults] at h ⊢
  split at h
  · exact absurd rfl h
  · rename_i hvalid
    rw [if_neg hvalid]

theorem listFaults_eq_whole {faults : Json → List Place} {v : Json}
    (h : ∀ items, v ≠ .arr items) : listFaults faults v = [[]] := by
  cases v with
  | arr items => exact absurd rfl (h items)
  | _ => rfl

/-- Of a list of scalars each bad one is told. -/
theorem listFaults_scalarFaults (valid : Json → Bool) (items : List Json) :
    listFaults (scalarFaults valid) (.arr items) =
      (items.zipIdx.filter fun p => !valid p.1).map fun p => [.item p.2] := by
  rw [listFaults]
  induction items.zipIdx with
  | nil => rfl
  | cons p rest ih =>
    rw [List.flatMap_cons, ih, scalarFaults]
    cases hvalid : valid p.1 <;> simp [hvalid]

/-- Nothing but an object is at fault as a whole. -/
theorem nil_mem_recordFaults_iff {rules : List Rule} {v : Json} :
    [] ∈ recordFaults rules v ↔ ∀ fields, v ≠ .obj fields := by
  cases v with
  | obj fields => simp [Rule.mem_recordFaults_iff]
  | _ => simp [recordFaults]

/-! ## No place twice -/

theorem nodup_scalarFaults (valid : Json → Bool) (v : Json) : (scalarFaults valid v).Nodup := by
  rw [scalarFaults]
  split <;> simp

theorem nodup_map_cons {places : List Place} (s : Segment) (h : places.Nodup) :
    (places.map (s :: ·)).Nodup := h.map fun _ _ heq => (List.cons.inj heq).2

theorem disjoint_map_cons {s t : Segment} (h : s ≠ t) (these those : List Place) :
    List.Disjoint (these.map (s :: ·)) (those.map (t :: ·)) := by
  intro place hs ht
  obtain ⟨rest, -, rfl⟩ := List.mem_map.1 hs
  obtain ⟨rest', -, heq⟩ := List.mem_map.1 ht
  exact h (List.cons.inj heq).1.symm

theorem nodup_listFaults {faults : Json → List Place} (h : ∀ v, (faults v).Nodup) (v : Json) :
    (listFaults faults v).Nodup := by
  cases v with
  | arr items =>
    refine List.nodup_flatMap.2 ⟨fun p _ => nodup_map_cons _ (h p.1), ?_⟩
    have hindices := List.pairwise_map.1 (nodup_map_snd_zipIdx items)
    exact hindices.imp fun hne => disjoint_map_cons (fun heq => hne (Segment.item.inj heq)) _ _
  | _ => exact List.nodup_singleton _

theorem nodup_recordFaults {rules : List Rule} (hapart : rules.Pairwise Rule.Apart)
    (h : ∀ r ∈ rules, ∀ v, (r.faults v).Nodup) (v : Json) : (recordFaults rules v).Nodup := by
  cases v with
  | obj fields =>
    refine List.nodup_flatMap.2 ⟨fun r hr => nodup_map_cons _ ?_, ?_⟩
    · rw [Rule.faultsIn]
      split
      · exact h r hr _
      · split <;> simp
    · refine hapart.imp fun hrt => disjoint_map_cons (fun heq => ?_) _ _
      exact Rule.nameIn_ne fields hrt (Segment.field.inj heq)
  | _ => exact List.nodup_singleton _

end WorkflowCanvas
