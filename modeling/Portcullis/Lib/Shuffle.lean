import Portcullis.Lib.Serde
import Mathlib.Data.List.Perm.Basic
/-!
# Shuffle — documents with their fields in another order

`Shuffled j j'` says that `j'` is `j` with the fields of any of its objects permuted.  A decoder that reads structs by
name and variants by tag does not tell the two apart (`Unordered`): there is one lemma for each way to read, the fields
of a struct (`unordered_struct`), a variant (`unordered_variant`), a tag beside other fields (`unordered_tagged`).
-/
namespace Serde

open List

variable {α β : Type}

mutual

inductive Shuffled : Json → Json → Prop
  | same (j : Json) : Shuffled j j
  | arr {l l' : List Json} : ShuffledItems l l' → Shuffled (.arr l) (.arr l')
  | obj {fs gs fs' : List (String × Json)} : ShuffledFields fs gs → gs ~ fs' → Shuffled (.obj fs) (.obj fs')

inductive ShuffledItems : List Json → List Json → Prop
  | nil : ShuffledItems [] []
  | cons {j j' : Json} {l l' : List Json} : Shuffled j j' → ShuffledItems l l' → ShuffledItems (j :: l) (j' :: l')

inductive ShuffledFields : List (String × Json) → List (String × Json) → Prop
  | nil : ShuffledFields [] []
  | cons {j j' : Json} {fs fs' : List (String × Json)} (name : String) :
    Shuffled j j' → ShuffledFields fs fs' → ShuffledFields ((name, j) :: fs) ((name, j') :: fs')

end

/-- A decoder that reads a document and its shufflings alike. -/
def Unordered (dec : Json → α) : Prop := ∀ j j', Shuffled j j' → dec j' = dec j

theorem ShuffledItems.length_eq : ∀ {l l' : List Json}, ShuffledItems l l' → l'.length = l.length
  | _, _, .nil => rfl
  | _, _, .cons _ h => congrArg (· + 1) h.length_eq

theorem Shuffled.null_iff {j j' : Json} (h : Shuffled j j') : j' = .null ↔ j = .null := by
  cases h <;> simp

/-! ## Fields by name -/

/-- The values of one field in two orders of a struct: none in both, one in both, or refused in both. -/
inductive SameField : List Json → List Json → Prop
  | missing : SameField [] []
  | once {j j' : Json} : Shuffled j j' → SameField [j] [j']
  | repeated (i j i' j' : Json) (l l' : List Json) : SameField (i :: j :: l) (i' :: j' :: l')

/-- Every name has the same field in the two. -/
def FieldsAlike (fs fs' : List (String × Json)) : Prop := ∀ name, SameField (values name fs) (values name fs')

theorem ShuffledFields.values {name : String} : ∀ {fs gs : List (String × Json)}, ShuffledFields fs gs →
    ShuffledItems (values name fs) (values name gs)
  | _, _, .nil => .nil
  | _, _, .cons n hj h => by
    by_cases hn : n = name
    · subst hn
      rw [values_cons_self, values_cons_self]
      exact .cons hj h.values
    · rw [values_cons_of_ne hn, values_cons_of_ne hn]
      exact h.values

theorem values_perm {name : String} {fs fs' : List (String × Json)} (h : fs ~ fs') : values name fs ~ values name fs' :=
  (h.filter _).map _

theorem exists_cons_cons_of_perm {a b : β} {l m : List β} (h : a :: b :: l ~ m) : ∃ a' b' m', m = a' :: b' :: m' := by
  have hlen := h.length_eq
  cases m with
  | nil => cases hlen
  | cons a' m =>
    cases m with
    | nil => cases hlen
    | cons b' m' => exact ⟨a', b', m', rfl⟩

theorem sameField_of_perm {l m l' : List Json} (h : ShuffledItems l m) (hp : m ~ l') : SameField l l' := by
  cases h with
  | nil =>
    rw [List.nil_perm.1 hp]
    exact .missing
  | cons hj hrest =>
    cases hrest with
    | nil =>
      obtain rfl := List.singleton_perm.1 hp
      exact .once hj
    | cons hj' hrest =>
      obtain ⟨i', j', l', rfl⟩ := exists_cons_cons_of_perm hp
      exact .repeated ..

/-- **Permuting fields keeps every field.** -/
theorem ShuffledFields.alike {fs gs fs' : List (String × Json)} (h : ShuffledFields fs gs) (hp : gs ~ fs') :
    FieldsAlike fs fs' :=
  fun _ => sameField_of_perm h.values (values_perm hp)

section Fields

variable {fs fs' : List (String × Json)} {name : String} {dec : Json → Option α}

theorem Unordered.option (hdec : Unordered dec) : Unordered (option dec) := by
  intro j j' h
  by_cases hj : j = .null
  · rw [h.null_iff.2 hj, hj]
  · have hj' : j' ≠ .null := fun hnull => hj (h.null_iff.1 hnull)
    rw [option_of_ne_null hj, option_of_ne_null hj', hdec j j' h]

theorem FieldsAlike.required (h : FieldsAlike fs fs') (hdec : Unordered dec) :
    required dec name fs' = required dec name fs := by
  unfold Serde.required
  generalize hl : values name fs = l
  generalize hl' : values name fs' = l'
  cases (hl ▸ hl' ▸ h name : SameField l l') with
  | missing => rfl
  | once hj => exact hdec _ _ hj
  | repeated => rfl

theorem FieldsAlike.optional (h : FieldsAlike fs fs') (hdec : Unordered dec) :
    optional dec name fs' = optional dec name fs := by
  unfold Serde.optional
  generalize hl : values name fs = l
  generalize hl' : values name fs' = l'
  cases (hl ▸ hl' ▸ h name : SameField l l') with
  | missing => rfl
  | once hj => exact hdec.option _ _ hj
  | repeated => rfl

theorem FieldsAlike.defaulted (h : FieldsAlike fs fs') (hdec : Unordered dec) (x : α) :
    defaulted x dec name fs' = defaulted x dec name fs := by
  unfold Serde.defaulted
  generalize hl : values name fs = l
  generalize hl' : values name fs' = l'
  cases (hl ▸ hl' ▸ h name : SameField l l') with
  | missing => rfl
  | once hj => exact hdec _ _ hj
  | repeated => rfl

end Fields

/-! ## Ways to read -/

theorem unordered_string : Unordered string := by
  intro j j' h
  cases h <;> rfl

theorem unordered_unsigned (size : Nat) : Unordered (unsigned size) := by
  intro j j' h
  cases h <;> rfl

theorem unordered_boolean : Unordered boolean := by
  intro j j' h
  cases h <;> rfl

theorem Unordered.map {dec : Json → Option α} (hdec : Unordered dec) (f : α → β) : Unordered (fun j => (dec j).map f) :=
  fun j j' h => congrArg (Option.map f) (hdec j j' h)

theorem mapM_of_shuffledItems {dec : Json → Option α} (hdec : Unordered dec) : ∀ {l l' : List Json}, ShuffledItems l l' →
    l'.mapM dec = l.mapM dec
  | _, _, .nil => rfl
  | _, _, .cons hj h => by rw [List.mapM_cons, List.mapM_cons, hdec _ _ hj, mapM_of_shuffledItems hdec h]

theorem Unordered.array {dec : Json → Option α} (hdec : Unordered dec) : Unordered (array dec) := by
  intro j j' h
  cases h with
  | same => rfl
  | arr h => exact mapM_of_shuffledItems hdec h
  | obj => rfl

theorem shuffledFields_zip : ∀ (names : List String) {l l' : List Json}, ShuffledItems l l' →
    ShuffledFields (names.zip l) (names.zip l')
  | [], _, _, _ => .nil
  | _ :: _, _, _, .nil => .nil
  | name :: names, _, _, .cons hj h => .cons name hj (shuffledFields_zip names h)

/-- **A struct is read by the names of its fields.** -/
theorem unordered_struct {names : List String} {short : Bool} {read : List (String × Json) → Option α}
    (hread : ∀ fs fs', FieldsAlike fs fs' → read fs' = read fs) :
    Unordered (fun j => (structFields names short j).bind read) := by
  intro j j' h
  cases h with
  | same => rfl
  | @arr l l' h =>
    have halike := (shuffledFields_zip names h).alike (List.Perm.refl _)
    simp only [structFields, h.length_eq]
    by_cases hlen : l.length = names.length ∨ short = true ∧ l.length < names.length
    · rw [if_pos hlen, if_pos hlen]
      exact hread _ _ halike
    · rw [if_neg hlen, if_neg hlen]
  | obj h hp => exact hread _ _ (h.alike hp)

/-- **A variant is read by its tag.** -/
theorem unordered_variant {read : String × Option Json → Option α}
    (hread : ∀ tag j j', Shuffled j j' → read (tag, some j') = read (tag, some j)) :
    Unordered (fun j => (variant j).bind read) := by
  intro j j' h
  cases h with
  | same => rfl
  | arr => rfl
  | obj h hp =>
    cases h with
    | nil => rw [List.nil_perm.1 hp]
    | cons name hj hrest =>
      cases hrest with
      | nil =>
        obtain rfl := List.singleton_perm.1 hp
        exact hread name _ _ hj
      | cons name' hj' hrest =>
        obtain ⟨f, g, fs', rfl⟩ := exists_cons_cons_of_perm hp
        rfl

theorem content_shuffled {dec : Json → Option α} (hdec : Unordered dec) {j j' : Json} (h : Shuffled j j') :
    content dec (some j') = content dec (some j) := hdec j j' h

theorem unit_shuffled (x : α) {j j' : Json} (h : Shuffled j j') : unit x (some j') = unit x (some j) := by
  cases h <;> rfl

theorem unordered_taggedUnit (x : α) : Unordered (taggedUnit x) := by
  intro j j' h
  cases h with
  | same => rfl
  | arr h => cases h <;> rfl
  | obj => rfl

theorem ShuffledFields.filter_ne (name : String) : ∀ {fs gs : List (String × Json)}, ShuffledFields fs gs →
    ShuffledFields (fs.filter (fun f => f.1 != name)) (gs.filter (fun f => f.1 != name))
  | _, _, .nil => .nil
  | _, _, .cons n hj h => by
    rw [List.filter_cons, List.filter_cons]
    by_cases hn : n != name
    · rw [if_pos hn, if_pos hn]
      exact .cons n hj (h.filter_ne name)
    · rw [if_neg hn, if_neg hn]
      exact h.filter_ne name

theorem SameField.tag_iff {l l' : List Json} (h : SameField l l') (tag : String) : l' = [.str tag] ↔ l = [.str tag] := by
  cases h with
  | missing => exact Iff.rfl
  | once hj => cases hj <;> simp
  | repeated => simp

theorem tagged_of_values {name tag : String} {fs : List (String × Json)} (h : values name fs = [.str tag]) :
    tagged name (.obj fs) = some (tag, .obj (fs.filter (fun f => f.1 != name))) := by
  unfold tagged
  simp only [h]

theorem tagged_eq_none {name : String} {fs : List (String × Json)} (h : ∀ tag, values name fs ≠ [.str tag]) :
    tagged name (.obj fs) = none := by
  cases ht : tagged name (.obj fs) with
  | none => rfl
  | some r =>
    obtain ⟨tag, rest⟩ := r
    rcases tagged_eq_some ht with ⟨fs', heq, hv, -⟩ | ⟨items, heq, -⟩
    · cases heq
      exact absurd hv (h tag)
    · cases heq

/-- **A tag beside other fields** is found wherever it stands. -/
theorem unordered_tagged {name : String} {read : String × Json → Option α}
    (hread : ∀ tag j j', Shuffled j j' → read (tag, j') = read (tag, j)) :
    Unordered (fun j => (tagged name j).bind read) := by
  intro j j' h
  cases h with
  | same => rfl
  | arr h =>
    cases h with
    | nil => rfl
    | @cons i i' l l' hj hrest =>
      cases hj with
      | same =>
        cases i with
        | str tag => exact hread tag _ _ (.arr hrest)
        | _ => rfl
      | arr => rfl
      | obj => rfl
  | @obj fs gs fs' h hp =>
    have htag (tag : String) : values name fs' = [.str tag] ↔ values name fs = [.str tag] := (h.alike hp name).tag_iff tag
    by_cases hv : ∃ tag, values name fs = [.str tag]
    · obtain ⟨tag, hv⟩ := hv
      simp only [tagged_of_values hv, tagged_of_values ((htag tag).2 hv), Option.bind_some]
      exact hread tag _ _ (.obj (h.filter_ne name) (hp.filter _))
    · rw [not_exists] at hv
      have hv' (tag : String) : values name fs' ≠ [.str tag] := fun heq => hv tag ((htag tag).1 heq)
      simp only [tagged_eq_none hv, tagged_eq_none hv']

end Serde
