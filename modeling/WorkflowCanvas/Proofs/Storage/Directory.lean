import Mathlib.Data.List.Basic
import WorkflowCanvas.Storage.Volume

/-! A directory of a volume and the files in it. Main statements: what a path to a name in the
directory leads to; and that putting a file there, or removing it, changes what is under that name
and the names in the directory by that name alone. -/
namespace WorkflowCanvas.Volume
set_option autoImplicit false

variable {v w : Volume} {p : Path} {place here other names : List String} {name x : String}
  {item : Item} {content : List UInt8}

/-! ## Items under names -/

/-- The volume without what is at a place. -/
def without (v : Volume) (place : List String) : Volume := ⟨v.items.filter (·.1 != place)⟩

theorem lookup_without_self (v : Volume) (place : List String) :
    (v.without place).items.lookup place = none := by
  rw [without, List.lookup_eq_none_iff]
  intro i hi
  have hne := (List.mem_filter.1 hi).2
  rw [bne_iff_ne] at hne
  simpa using hne.symm

theorem lookup_without_of_ne (v : Volume) (h : other ≠ place) :
    (v.without place).items.lookup other = v.items.lookup other := by
  rw [without]
  induction v.items with
  | nil => rfl
  | cons i rest ih =>
    obtain ⟨there, item⟩ := i
    by_cases hthere : there = place
    · have hb : (other == there) = false := by simpa [hthere] using h
      rw [List.filter_cons_of_neg (by simp [hthere]), ih, List.lookup_cons, hb]
    · rw [List.filter_cons_of_pos (by simpa using hthere), List.lookup_cons, List.lookup_cons, ih]

theorem item?_concat (v : Volume) (place : List String) (x : String) :
    v.item? (place ++ [x]) = v.items.lookup (place ++ [x]) := by
  simp [item?]

theorem item?_without_self (v : Volume) (place : List String) (x : String) :
    (v.without (place ++ [x])).item? (place ++ [x]) = none := by
  rw [item?_concat, lookup_without_self]

theorem item?_without_of_ne (v : Volume) (h : other ≠ place) :
    (v.without place).item? other = v.item? other := by
  rw [item?, item?, lookup_without_of_ne v h]

theorem item?_put_self (v : Volume) (place : List String) (x : String) (item : Item) :
    (v.put (place ++ [x]) item).item? (place ++ [x]) = some item := by
  have hnone := lookup_without_self v (place ++ [x])
  rw [without] at hnone
  rw [item?_concat, put, List.lookup_append, hnone]
  simp

theorem item?_put_of_ne (v : Volume) (item : Item) (h : other ≠ place) :
    (v.put place item).item? other = v.item? other := by
  have hsame := lookup_without_of_ne v h
  rw [without] at hsame
  have hb : (other == place) = false := by simpa using h
  rw [item?, item?, put, List.lookup_append, hsame, List.lookup_cons, hb]
  simp

/-! ## Following names -/

theorem follow_cons_eq_ok_iff (hnames : names ≠ []) :
    v.follow here (name :: names) = .ok place ↔ ∃ next, enter here name = .ok next ∧
      v.item? next = some .directory ∧ v.follow next names = .ok place := by
  obtain ⟨second, rest, rfl⟩ := List.exists_cons_of_ne_nil hnames
  rw [follow]
  · cases henter : enter here name with
    | error fault => simp [bind, Except.bind]
    | ok next =>
      cases hitem : v.item? next with
      | none => simp [bind, Except.bind, hitem]
      | some item => cases item <;> simp [bind, Except.bind, hitem]
  · exact hnames

theorem follow_cons {next : List String} (hnames : names ≠ []) (henter : enter here name = .ok next)
    (hnext : v.item? next = some .directory) :
    v.follow here (name :: names) = v.follow next names := by
  obtain ⟨second, rest, rfl⟩ := List.exists_cons_of_ne_nil hnames
  rw [follow]
  · simp [henter, hnext, bind, Except.bind]
  · exact hnames

/-- Behind a path that leads to a directory, a further name is looked for in it. -/
theorem follow_concat (hplace : v.follow here names = .ok place)
    (hdirectory : v.item? place = some .directory) (x : String) :
    v.follow here (names ++ [x]) = enter place x := by
  induction names generalizing here with
  | nil => cases hplace; rfl
  | cons name rest ih =>
    have hconcat : rest ++ [x] ≠ [] := by simp
    by_cases hrest : rest = []
    · subst hrest
      exact follow_cons hconcat hplace hdirectory
    · obtain ⟨next, henter, hnext, hplace⟩ := (follow_cons_eq_ok_iff hrest).1 hplace
      rw [List.cons_append, follow_cons hconcat henter hnext, ih hplace]

theorem follow_of_directories
    (h : ∀ place, v.item? place = some .directory → w.item? place = some .directory)
    (hplace : v.follow here names = .ok place) : w.follow here names = .ok place := by
  induction names generalizing here with
  | nil => exact hplace
  | cons name rest ih =>
    by_cases hrest : rest = []
    · subst hrest
      exact hplace
    · obtain ⟨next, henter, hnext, hplace⟩ := (follow_cons_eq_ok_iff hrest).1 hplace
      exact (follow_cons_eq_ok_iff hrest).2 ⟨next, henter, h next hnext, ih hplace⟩

/-! ## A directory and what is in it -/

/-- A path leads to a place at which there is a directory. -/
structure IsAt (v : Volume) (p : Path) (place : List String) : Prop where
  leads : v.follow [] p.names = .ok place
  directory : v.item? place = some .directory

theorem exists_isAt (h : v.hasDirectory p = .ok true) : ∃ place, v.IsAt p place := by
  rw [hasDirectory, has, item, find] at h
  cases hfollow : v.follow [] p.names with
  | error fault =>
    rw [hfollow] at h
    cases fault <;> cases h
  | ok place =>
    refine ⟨place, hfollow, ?_⟩
    rw [hfollow] at h
    cases hitem : v.item? place with
    | none => simp [hitem, bind, Except.bind, Except.map] at h
    | some item => simpa [hitem, bind, Except.bind, Except.map] using h

namespace IsAt

theorem item_eq (h : v.IsAt p place) : v.item p = .ok .directory := by
  rw [item, find, h.leads]
  simp [h.directory, bind, Except.bind, Except.map]

theorem hasDirectory (h : v.IsAt p place) : v.hasDirectory p = .ok true := by
  rw [Volume.hasDirectory, has, h.item_eq]
  rfl

theorem makeDirectories (h : v.IsAt p place) : v.makeDirectories p = (.ok (), v) := by
  have htaken : v.make p = .error .taken := by
    rw [make, find, h.leads]
    simp [h.directory, bind, Except.bind, Except.map]
  rw [Volume.makeDirectories, makeAll, makeOrKeep, htaken]
  simp only [h.item_eq]

/-- A directory stays where it is when something changes that is no directory. -/
theorem of_others (h : v.IsAt p place) {changed : List String}
    (hchanged : v.item? changed ≠ some .directory)
    (hothers : ∀ other, other ≠ changed → w.item? other = v.item? other) : w.IsAt p place := by
  have hkept : ∀ other, v.item? other = some .directory → w.item? other = some .directory := by
    intro other hother
    have hne : other ≠ changed := by
      rintro rfl
      exact hchanged hother
    rw [hothers other hne, hother]
  exact ⟨follow_of_directories hkept h.leads, hkept place h.directory⟩

end IsAt

/-! ## Paths of files in a directory -/

/-- The path of a name in the directory of a path. -/
def below (p : Path) (x : String) : Path := { p with names := p.names ++ [x] }

theorem parent_below (p : Path) (x : String) : (below p x).parent = p := by
  rw [below, Path.parent, List.dropLast_concat]

/-- A name that a volume takes: it is no step upwards and not too long. -/
structure Takes (x : String) : Prop where
  stays : x ≠ ".."
  fits : x.utf8ByteSize ≤ nameLimit

namespace IsAt

theorem find_below (h : v.IsAt p place) (hx : Takes x) :
    v.find (below p x) = .ok (place ++ [x], v.item? (place ++ [x])) := by
  have henter : enter place x = .ok (place ++ [x]) := by
    rw [enter, if_neg (by simpa using hx.stays), if_neg (by have := hx.fits; omega)]
  rw [find, below, follow_concat h.leads h.directory, henter]
  rfl

theorem find_below_long (h : v.IsAt p place) (hstays : x ≠ "..")
    (hlong : nameLimit < x.utf8ByteSize) : v.find (below p x) = .error .nameTooLong := by
  have henter : enter place x = .error .nameTooLong := by
    rw [enter, if_neg (by simpa using hstays), if_pos hlong]
  rw [find, below, follow_concat h.leads h.directory, henter]
  rfl

theorem has?_below (h : v.IsAt p place) (hx : Takes x) :
    v.has? (below p x) = .ok (v.item? (place ++ [x])).isSome := by
  rw [has?, has, item, h.find_below hx]
  cases v.item? (place ++ [x]) <;> rfl

theorem read_below (h : v.IsAt p place) (hx : Takes x)
    (hfile : v.item? (place ++ [x]) = some (.file content)) :
    v.read (below p x) = .ok content := by
  rw [read, item, h.find_below hx, hfile]
  rfl

theorem write_below (h : v.IsAt p place) (hx : Takes x)
    (hfile : v.item? (place ++ [x]) ≠ some .directory) (content : List UInt8) :
    v.write (below p x) content = .ok (v.put (place ++ [x]) (.file content)) := by
  rw [write, h.find_below hx]
  cases hitem : v.item? (place ++ [x]) with
  | none => rfl
  | some item =>
    cases item with
    | directory => exact absurd hitem hfile
    | file old => rfl

theorem remove_below (h : v.IsAt p place) (hx : Takes x)
    (hfile : v.item? (place ++ [x]) = some (.file content)) :
    v.remove (below p x) = .ok (v.without (place ++ [x])) := by
  rw [remove, h.find_below hx, hfile]
  rfl

theorem put_file (h : v.IsAt p place) (hfile : v.item? (place ++ [x]) ≠ some .directory)
    (content : List UInt8) : (v.put (place ++ [x]) (.file content)).IsAt p place :=
  h.of_others hfile fun _ hother => v.item?_put_of_ne _ hother

theorem without_file (h : v.IsAt p place) (hfile : v.item? (place ++ [x]) ≠ some .directory) :
    (v.without (place ++ [x])).IsAt p place :=
  h.of_others hfile fun _ hother => v.item?_without_of_ne hother

end IsAt

/-! ## Names in a directory -/

/-- The name under which an item is in the directory at a place. -/
def nameAt (place : List String) (i : List String × Item) : Option String :=
  if i.1.dropLast == place && !i.1.isEmpty then i.1.getLast? else none

theorem nameAt_eq_some_iff {i : List String × Item} :
    nameAt place i = some x ↔ i.1 = place ++ [x] := by
  obtain ⟨there, item⟩ := i
  rcases List.eq_nil_or_concat there with rfl | ⟨front, last, rfl⟩
  · simp [nameAt]
  · simp [nameAt]

theorem filter_nameAt (place : List String) (x : String) (i : List String × Item) :
    (if i.1 != place ++ [x] then nameAt place i else none) = (nameAt place i).filter (· != x) := by
  cases hname : nameAt place i with
  | none => simp
  | some y =>
    have hi := nameAt_eq_some_iff.1 hname
    rw [Option.filter_some]
    by_cases hy : y = x <;> simp [hi, hy]

theorem filterMap_nameAt_without (v : Volume) (place : List String) (x : String) :
    (v.without (place ++ [x])).items.filterMap (nameAt place) =
      (v.items.filterMap (nameAt place)).filter (· != x) := by
  rw [without, List.filterMap_filter, List.filter_filterMap]
  exact congrArg (List.filterMap · v.items) (funext fun i => filter_nameAt place x i)

namespace IsAt

theorem namesIn_eq (h : v.IsAt p place) : v.namesIn p = v.items.filterMap (nameAt place) := by
  rw [namesIn, h.leads]
  rfl

theorem mem_namesIn_iff (h : v.IsAt p place) :
    x ∈ v.namesIn p ↔ (v.item? (place ++ [x])).isSome := by
  rw [h.namesIn_eq, List.mem_filterMap, item?_concat, Option.isSome_iff_ne_none, ne_eq,
    List.lookup_eq_none_iff]
  simp only [nameAt_eq_some_iff]
  constructor
  · rintro ⟨i, hi, hplace⟩ hnone
    simpa [hplace] using hnone i hi
  · intro hsome
    by_contra hnone
    refine hsome fun i hi => ?_
    rw [bne_iff_ne]
    exact fun heq => hnone ⟨i, hi, heq.symm⟩

theorem namesIn_without (h : v.IsAt p place) (hw : (v.without (place ++ [x])).IsAt p place) :
    (v.without (place ++ [x])).namesIn p = (v.namesIn p).filter (· != x) := by
  rw [hw.namesIn_eq, filterMap_nameAt_without, h.namesIn_eq]

theorem namesIn_put (h : v.IsAt p place) (hw : (v.put (place ++ [x]) item).IsAt p place) :
    (v.put (place ++ [x]) item).namesIn p = (v.namesIn p).filter (· != x) ++ [x] := by
  have hput : (v.put (place ++ [x]) item).items =
      (v.without (place ++ [x])).items ++ [(place ++ [x], item)] := rfl
  have hlast : nameAt place (place ++ [x], item) = some x := nameAt_eq_some_iff.2 rfl
  rw [hw.namesIn_eq, hput, List.filterMap_append, filterMap_nameAt_without, h.namesIn_eq,
    List.filterMap_cons, hlast, List.filterMap_nil]

end IsAt

end WorkflowCanvas.Volume
