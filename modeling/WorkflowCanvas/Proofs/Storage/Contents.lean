import WorkflowCanvas.Proofs.Json.Token
import WorkflowCanvas.Proofs.Storage.Loading

/-! Contents of files that were written. Main statement: the content of a file to which the text of
a value was written is read as that text, for the text of a value is ASCII and has no carriage
return. -/
namespace WorkflowCanvas
open Decimal (IsRow)
set_option autoImplicit false

/-- Text that reading a file leaves as it is. -/
def Smooth (cs : List Char) : Prop := ∀ c ∈ cs, c.toNat < 0x80 ∧ c ≠ '\r'

namespace Smooth
variable {cs ds : List Char}

theorem of_all (h : cs.all (fun c => c.toNat < 0x80 && c != '\r') = true) : Smooth cs := by
  intro c hc
  have hchar := List.all_eq_true.1 h c hc
  rwa [Bool.and_eq_true, decide_eq_true_eq, bne_iff_ne] at hchar

theorem append (hcs : Smooth cs) (hds : Smooth ds) : Smooth (cs ++ ds) := fun c hc =>
  (List.mem_append.1 hc).elim (hcs c) (hds c)

theorem cons {c : Char} (hc : c.toNat < 0x80 ∧ c ≠ '\r') (hcs : Smooth cs) : Smooth (c :: cs) :=
  List.forall_mem_cons.2 ⟨hc, hcs⟩

theorem replicate {c : Char} (hc : c.toNat < 0x80 ∧ c ≠ '\r') (count : Nat) :
    Smooth (List.replicate count c) := by
  intro d hd
  rwa [List.eq_of_mem_replicate hd]

theorem intercalate {parts : List (List Char)} (hcs : Smooth cs) (h : ∀ part ∈ parts, Smooth part) :
    Smooth (cs.intercalate parts) := by
  induction parts with
  | nil => exact nofun
  | cons part parts ih =>
    have hpart := h part List.mem_cons_self
    have hrest := ih fun other hother => h other (List.mem_cons_of_mem part hother)
    cases parts with
    | nil => rwa [List.intercalate_singleton]
    | cons next parts =>
      rw [List.intercalate_cons_cons]
      exact (hpart.append hcs).append hrest

end Smooth

/-! ## Numbers -/

namespace Decimal
variable {ds : List Char}

theorem IsRow.smooth (h : IsRow ds) : Smooth ds := by
  intro c hc
  obtain ⟨k, rfl⟩ := exists_digitChar (h c hc)
  have hall : ∀ k : Fin 10, (digitChar k).toNat < 0x80 ∧ digitChar k ≠ '\r' := by decide
  exact hall k

theorem smooth_digitsOf (n : Nat) : Smooth (digitsOf n) := (isRow_digitsOf n).smooth

theorem smooth_intText (n : Int) : Smooth (intText n) := by
  rw [intText]
  split
  · exact .cons (by decide) (smooth_digitsOf _)
  · exact smooth_digitsOf _

theorem smooth_powerText (p : Int) : Smooth (powerText p) := by
  refine .cons (by decide) (.cons ?_ ?_)
  · split <;> decide
  · split
    · exact .cons (by decide) (smooth_digitsOf _)
    · exact smooth_digitsOf _

theorem smooth_layout (h : Smooth ds) (place : Int) : Smooth (layout ds place) := by
  have hzeros : ∀ count, Smooth (List.replicate count '0') := Smooth.replicate (by decide)
  unfold layout
  split
  · split
    · exact smooth_powerText _
    · exact .cons (h _ List.mem_cons_self) (smooth_powerText _)
    · rename_i d rest _
      have hrest : Smooth rest := fun c hc => h c (List.mem_cons_of_mem d hc)
      exact .append (.cons (h d List.mem_cons_self) (.cons (by decide) hrest)) (smooth_powerText _)
  · split
    · exact .append (.cons (by decide) (.cons (by decide) (hzeros _))) h
    · split
      · exact .append (.append h (hzeros _)) (.cons (by decide) (.cons (by decide) nofun))
      · have htake : Smooth (ds.take place.toNat) := fun c hc => h c (List.mem_of_mem_take hc)
        have hdrop : Smooth (ds.drop place.toNat) := fun c hc => h c (List.mem_of_mem_drop hc)
        exact .append htake (.cons (by decide) hdrop)

theorem smooth_floatText (x : Float) : Smooth (floatText documentWords x) := by
  have hsign : Smooth (if x.toBits.toNat < Nat.pow 2 63 then [] else ['-']) := by
    split
    · exact nofun
    · exact .cons (by decide) nofun
  have hwords : Smooth documentWords.undefined ∧ Smooth documentWords.infinite ∧
      Smooth ['0', '.', '0'] :=
    ⟨.of_all (by decide), .of_all (by decide), .of_all (by decide)⟩
  have hkept :
      Smooth (((digitsOf (shortest x.abs).digits).reverse.dropWhile (· == '0')).reverse) := by
    intro c hc
    have hmem := (List.dropWhile_sublist _).mem (List.mem_reverse.1 hc)
    exact smooth_digitsOf _ c (List.mem_reverse.1 hmem)
  simp only [floatText]
  split
  · exact hwords.1
  · split
    · exact hsign.append hwords.2.2
    · split
      · exact hsign.append hwords.2.1
      · exact hsign.append (smooth_layout hkept _)

end Decimal

/-! ## Values -/

namespace Json
variable {indent : Option Nat} {depth : Nat}

theorem smooth_unitText (n : Nat) : Smooth (unitText n) := by
  have hall : ∀ k : Fin 16, (Text.hexDigit k).toNat < 0x80 ∧ Text.hexDigit k ≠ '\r' := by decide
  have hdigit : ∀ m, (Text.hexDigit (m % 16)).toNat < 0x80 ∧ Text.hexDigit (m % 16) ≠ '\r' :=
    fun m => hall ⟨m % 16, Nat.mod_lt m (by decide)⟩
  exact .cons (by decide) (.cons (by decide) (.cons (hdigit _) (.cons (hdigit _)
    (.cons (hdigit _) (.cons (hdigit _) nofun)))))

theorem smooth_charText (c : Char) : Smooth (charText c) := by
  rcases charText_cases c with ⟨d, htext, -, hd, -⟩ | ⟨htext, -, -, hlow, hhigh⟩ | ⟨htext, -⟩ |
    ⟨htext, -⟩
  · have hescapes : d.toNat < 0x80 ∧ d ≠ '\r' := by
      unfold escaped? at hd
      split at hd <;> first | decide | cases hd
    rw [htext]
    exact .cons (by decide) (.cons hescapes nofun)
  · rw [htext]
    refine .cons ⟨by omega, ?_⟩ nofun
    rintro rfl
    exact absurd hlow (by decide)
  · rw [htext]
    exact smooth_unitText _
  · rw [htext]
    exact .append (smooth_unitText _) (smooth_unitText _)

theorem smooth_stringText (s : String) : Smooth (stringText s) := by
  refine .append (.cons (by decide) fun c hc => ?_) (.cons (by decide) nofun)
  obtain ⟨d, -, hd⟩ := List.mem_flatMap.1 hc
  exact smooth_charText d c hd

theorem smooth_gap : Smooth (gap indent depth) := by
  cases indent with
  | none => exact nofun
  | some n => exact .cons (by decide) (.replicate (by decide) _)

theorem smooth_separator : Smooth (separator indent depth) := by
  cases indent with
  | none => exact .cons (by decide) (.cons (by decide) nofun)
  | some n => exact .cons (by decide) smooth_gap

theorem smooth_enclose {left right : Char} {parts : List (List Char)}
    (hleft : left.toNat < 0x80 ∧ left ≠ '\r') (hright : right.toNat < 0x80 ∧ right ≠ '\r')
    (h : ∀ part ∈ parts, Smooth part) : Smooth (enclose indent depth left right parts) := by
  have hend : Smooth [right] := .cons hright nofun
  rw [enclose]
  split
  · exact .cons hleft hend
  · exact .append (.append (.append (.cons hleft smooth_gap) (.intercalate smooth_separator h))
      smooth_gap) hend

mutual

/-- The text of a value is ASCII and has no carriage return. -/
theorem smooth_writeAt : ∀ (depth : Nat) (v : Json), Smooth (writeAt indent depth v)
  | _, null => show Smooth "null".toList from .of_all (by decide)
  | _, bool true => show Smooth "true".toList from .of_all (by decide)
  | _, bool false => show Smooth "false".toList from .of_all (by decide)
  | _, int n => Decimal.smooth_intText n
  | _, float x => Decimal.smooth_floatText x
  | _, str s => smooth_stringText s
  | depth, arr items =>
    smooth_enclose (by decide) (by decide) (smooth_itemTexts (depth + 1) items)
  | depth, obj fields =>
    smooth_enclose (by decide) (by decide) (smooth_fieldTexts (depth + 1) fields)

theorem smooth_itemTexts : ∀ (depth : Nat) (items : List Json),
    ∀ part ∈ itemTexts indent depth items, Smooth part
  | _, [] => nofun
  | depth, item :: rest =>
    List.forall_mem_cons.2 ⟨smooth_writeAt depth item, smooth_itemTexts depth rest⟩

theorem smooth_fieldTexts : ∀ (depth : Nat) (fields : List (String × Json)),
    ∀ part ∈ fieldTexts indent depth fields, Smooth part
  | _, [] => nofun
  | depth, (name, v) :: rest =>
    have hvalue : Smooth (':' :: ' ' :: writeAt indent depth v) :=
      .cons (by decide) (.cons (by decide) (smooth_writeAt depth v))
    List.forall_mem_cons.2 ⟨(smooth_stringText name).append hvalue, smooth_fieldTexts depth rest⟩

end

end Json

/-! ## Files -/

namespace FileStorage

theorem textOf_write (indent : Option Nat) (v : Json) :
    textOf (Text.Utf8.encode (Json.write indent v).toList) = .ok (Json.write indent v) := by
  have hsmooth : Smooth (Json.writeAt indent 0 v) := Json.smooth_writeAt 0 v
  have hreturn : '\r' ∉ Json.writeAt indent 0 v := fun h => (hsmooth _ h).2 rfl
  rw [Json.write, String.toList_ofList, textOf,
    Text.Utf8.decode_encode_ascii fun c hc => (hsmooth c hc).1]
  simp only [Except.map, plainBreaks_of_not_mem hreturn]

/-- The content of a file to which data was written is the document that its text is read as. -/
theorem documentOf_render {style : Json.Style} {d : Datum} {text : String}
    (h : d.render style = .ok text) :
    documentOf (Text.Utf8.encode text.toList) = (Json.readObject text).mapError .notJson := by
  rw [Datum.render] at h
  cases hsettle : d.settle style.sortKeys with
  | error why =>
    rw [hsettle] at h
    cases h
  | ok v =>
    rw [hsettle] at h
    cases h
    rw [documentOf, textOf_write]

end FileStorage
end WorkflowCanvas
