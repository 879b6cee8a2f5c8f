import Mathlib.Data.List.Nodup
/-!
# Serde — documents, how a derived decoder reads them, and what may be left out

A document is a tree; a struct is an object with one field a name, an externally tagged variant a bare name or an
object of one field.  `Trimmed ok` is a document with some object fields dropped, each at a path and with a value that
`ok` allows: every field of the original is still there once or was allowed to go (`Dropped.values_eq`), so the readers
of the three kinds of field agree with the original (`required_of_dropped`, `optional_of_dropped`,
`defaulted_of_dropped`), and a part with nothing to drop is unchanged (`Trimmed.eq_self`).
-/
namespace Serde

/-- A document; a number that is no integer is the text of it, which no reader here takes. -/
inductive Json where
  | null
  | bool (b : Bool)
  | num (n : Int)
  | float (text : String)
  | str (s : String)
  | arr (items : List Json)
  | obj (fields : List (String × Json))

variable {α β : Type}

/-! ## Readers -/

def string : Json → Option String
  | .str s => some s
  | _ => none

/-- An unsigned integer below `size`. -/
def unsigned (size : Nat) : Json → Option Nat
  | .num n => if 0 ≤ n ∧ n.toNat < size then some n.toNat else none
  | _ => none

def array (dec : Json → Option α) : Json → Option (List α)
  | .arr items => items.mapM dec
  | _ => none

def option (dec : Json → Option α) : Json → Option (Option α)
  | .null => some none
  | j => (dec j).map some

def encOption (enc : α → Json) : Option α → Json
  | none => .null
  | some x => enc x

/-- The fields of a struct: of an object as they stand, of an array by position; `short` where missing ones have
defaults. -/
def structFields (names : List String) (short : Bool) : Json → Option (List (String × Json))
  | .obj fields => some fields
  | .arr items =>
    if items.length = names.length ∨ (short = true ∧ items.length < names.length) then some (names.zip items) else none
  | _ => none

def values (name : String) (fields : List (String × Json)) : List Json :=
  (fields.filter (fun f => f.1 == name)).map Prod.snd

/-- A field that must be there, once. -/
def required (dec : Json → Option α) (name : String) (fields : List (String × Json)) : Option α :=
  match values name fields with
  | [j] => dec j
  | _ => none

/-- An `Option` field: missing is `none`. -/
def optional (dec : Json → Option α) (name : String) (fields : List (String × Json)) : Option (Option α) :=
  match values name fields with
  | [] => some none
  | [j] => option dec j
  | _ => none

def defaulted (x : α) (dec : Json → Option α) (name : String) (fields : List (String × Json)) : Option α :=
  match values name fields with
  | [] => some x
  | [j] => dec j
  | _ => none

/-- Tag and content of an externally tagged variant. -/
def variant : Json → Option (String × Option Json)
  | .str tag => some (tag, none)
  | .obj [(tag, j)] => some (tag, some j)
  | _ => none

def unit (x : α) : Option Json → Option α
  | none => some x
  | some .null => some x
  | _ => none

def content (dec : Json → Option α) : Option Json → Option α
  | some j => dec j
  | none => none

def boolean : Json → Option Bool
  | .bool b => some b
  | _ => none

/-- Tag and rest of an internally tagged variant: an object without its one tag field, or an array after its tag. -/
def tagged (name : String) : Json → Option (String × Json)
  | .obj fields =>
    match values name fields with
    | [.str tag] => some (tag, .obj (fields.filter (fun f => f.1 != name)))
    | _ => none
  | .arr (.str tag :: rest) => some (tag, .arr rest)
  | _ => none

/-- A unit variant that is internally tagged: the fields beside the tag are ignored. -/
def taggedUnit (x : α) : Json → Option α
  | .obj _ => some x
  | .arr [] => some x
  | _ => none

/-- A field that is not written where it is `none`. -/
def skipNone (name : String) (enc : α → Json) : Option α → List (String × Json)
  | none => []
  | some x => [(name, enc x)]

theorem unsigned_num {size n : Nat} (h : n < size) : unsigned size (.num n) = some n := by
  simp [unsigned, h]

theorem values_filter_ne {name tag : String} (h : name ≠ tag) (fs : List (String × Json)) :
    values name (fs.filter (fun f => f.1 != tag)) = values name fs := by
  unfold values
  rw [List.filter_filter]
  refine congrArg _ (List.filter_congr (fun f _ => ?_))
  by_cases hf : f.1 = name <;> simp [hf, h]

theorem tagged_eq_some {name tag : String} {j rest : Json} (h : tagged name j = some (tag, rest)) :
    (∃ fs, j = .obj fs ∧ values name fs = [.str tag] ∧ rest = .obj (fs.filter (fun f => f.1 != name))) ∨
      ∃ items, j = .arr (.str tag :: items) ∧ rest = .arr items := by
  unfold tagged at h
  split at h
  · rename_i fs
    split at h
    · rename_i t ht
      cases h
      exact Or.inl ⟨fs, rfl, ht, rfl⟩
    · cases h
  · rename_i t items
    cases h
    exact Or.inr ⟨items, rfl, rfl⟩
  · cases h

theorem taggedUnit_arr {x y : α} {items : List Json} (h : taggedUnit x (.arr items) = some y) : y = x ∧ items = [] := by
  cases items with
  | nil => exact ⟨(Option.some.inj h).symm, rfl⟩
  | cons j rest => cases h

/-! ## Dropping fields -/

variable (ok : List String → Json → Prop)

mutual

/-- `j'` is `j`, at a path of field names from the inside out, with allowed fields dropped in it. -/
inductive Trimmed : List String → Json → Json → Prop
  | same (path : List String) (j : Json) : Trimmed path j j
  | arr {path : List String} {l l' : List Json} : TrimmedItems path l l' → Trimmed path (.arr l) (.arr l')
  | obj {path : List String} {fs fs' : List (String × Json)} : Dropped path fs fs' → Trimmed path (.obj fs) (.obj fs')

inductive TrimmedItems : List String → List Json → List Json → Prop
  | nil (path : List String) : TrimmedItems path [] []
  | cons {path : List String} {j j' : Json} {l l' : List Json} :
    Trimmed path j j' → TrimmedItems path l l' → TrimmedItems path (j :: l) (j' :: l')

inductive Dropped : List String → List (String × Json) → List (String × Json) → Prop
  | nil (path : List String) : Dropped path [] []
  | keep {path : List String} {j j' : Json} {fs fs' : List (String × Json)} (name : String) :
    Trimmed (name :: path) j j' → Dropped path fs fs' → Dropped path ((name, j) :: fs) ((name, j') :: fs')
  | drop {path : List String} {j : Json} {fs fs' : List (String × Json)} (name : String) :
    ok (name :: path) j → Dropped path fs fs' → Dropped path ((name, j) :: fs) fs'

end

variable {ok}

theorem trimmedItems_refl (path : List String) : ∀ l : List Json, TrimmedItems ok path l l
  | [] => .nil path
  | j :: l => .cons (.same path j) (trimmedItems_refl path l)

theorem dropped_refl (path : List String) : ∀ fs : List (String × Json), Dropped ok path fs fs
  | [] => .nil path
  | (name, j) :: fs => .keep name (.same _ j) (dropped_refl path fs)

theorem Trimmed.obj_inv {path : List String} {fs : List (String × Json)} {j : Json} (h : Trimmed ok path (.obj fs) j) :
    ∃ fs', j = .obj fs' ∧ Dropped ok path fs fs' := by
  cases h with
  | same => exact ⟨fs, rfl, dropped_refl path fs⟩
  | obj h => exact ⟨_, rfl, h⟩

theorem Trimmed.arr_inv {path : List String} {l : List Json} {j : Json} (h : Trimmed ok path (.arr l) j) :
    ∃ l', j = .arr l' ∧ TrimmedItems ok path l l' := by
  cases h with
  | same => exact ⟨l, rfl, trimmedItems_refl path l⟩
  | arr h => exact ⟨_, rfl, h⟩

/-- Nothing may be dropped below the path. -/
def Closed (ok : List String → Json → Prop) (path : List String) : Prop := ∀ q j, ok q j → path <:+ q → q = path

theorem Closed.cons {path : List String} (h : Closed ok path) (name : String) : Closed ok (name :: path) := by
  intro q j hq hsuf
  have hpath : q = path := h q j hq ((List.suffix_cons name path).trans hsuf)
  have hlen := hsuf.length_le
  rw [hpath, List.length_cons] at hlen
  omega

theorem Closed.not_ok {path : List String} (h : Closed ok path) (name : String) (j : Json) : ¬ ok (name :: path) j := by
  intro hok
  have hlen := congrArg List.length (h _ j hok (List.suffix_cons name path))
  rw [List.length_cons] at hlen
  omega

mutual

/-- **A part with nothing to drop is unchanged.** -/
theorem Trimmed.eq_self {path : List String} {j j' : Json} : Trimmed ok path j j' → Closed ok path → j' = j
  | .same _ _, _ => rfl
  | .arr h, hc => congrArg Json.arr (TrimmedItems.eq_self h hc)
  | .obj h, hc => congrArg Json.obj (Dropped.eq_self h hc)

theorem TrimmedItems.eq_self {path : List String} {l l' : List Json} : TrimmedItems ok path l l' → Closed ok path → l' = l
  | .nil _, _ => rfl
  | .cons h hl, hc => congrArg₂ List.cons (Trimmed.eq_self h hc) (TrimmedItems.eq_self hl hc)

theorem Dropped.eq_self {path : List String} {fs fs' : List (String × Json)} : Dropped ok path fs fs' →
    Closed ok path → fs' = fs
  | .nil _, _ => rfl
  | .keep name h hfs, hc => by rw [Trimmed.eq_self h (hc.cons name), Dropped.eq_self hfs hc]
  | .drop name hok _, hc => absurd hok (hc.not_ok name _)

end

/-! ## Reading what is left -/

theorem values_cons_of_ne {name n : String} (h : n ≠ name) (j : Json) (fs : List (String × Json)) :
    values name ((n, j) :: fs) = values name fs := by
  simp [values, h]

theorem values_cons_self (name : String) (j : Json) (fs : List (String × Json)) :
    values name ((name, j) :: fs) = j :: values name fs := by
  simp [values]

theorem Dropped.values_of_notMem {path : List String} {name : String} {fs fs' : List (String × Json)} :
    Dropped ok path fs fs' → name ∉ fs.map Prod.fst → values name fs' = []
  | .nil _, _ => rfl
  | .keep n _ h, hn => by
    rw [List.map_cons, List.mem_cons, not_or] at hn
    rw [values_cons_of_ne (Ne.symm hn.1), h.values_of_notMem hn.2]
  | .drop n _ h, hn => by
    rw [List.map_cons, List.mem_cons, not_or] at hn
    exact h.values_of_notMem hn.2

/-- **Every field is still there once, or was allowed to go.** -/
theorem Dropped.values_eq {path : List String} {name : String} {j : Json} {fs fs' : List (String × Json)} :
    Dropped ok path fs fs' → (fs.map Prod.fst).Nodup → (name, j) ∈ fs →
      (∃ j', Trimmed ok (name :: path) j j' ∧ values name fs' = [j']) ∨ (ok (name :: path) j ∧ values name fs' = [])
  | .nil _, _, hmem => by cases hmem
  | .keep n hk h, hnd, hmem => by
    rw [List.map_cons, List.nodup_cons] at hnd
    rcases List.mem_cons.1 hmem with heq | hmem
    · obtain ⟨rfl, rfl⟩ := Prod.mk.inj heq
      exact Or.inl ⟨_, hk, by rw [values_cons_self, h.values_of_notMem hnd.1]⟩
    · have hne : n ≠ name := by
        rintro rfl
        exact hnd.1 (List.mem_map.2 ⟨_, hmem, rfl⟩)
      rw [values_cons_of_ne hne]
      exact h.values_eq hnd.2 hmem
  | .drop n hk h, hnd, hmem => by
    rw [List.map_cons, List.nodup_cons] at hnd
    rcases List.mem_cons.1 hmem with heq | hmem
    · obtain ⟨rfl, rfl⟩ := Prod.mk.inj heq
      exact Or.inr ⟨hk, h.values_of_notMem hnd.1⟩
    · exact h.values_eq hnd.2 hmem

/-- `dec` reads `x` from every trimming of `j`. -/
def Reads (ok : List String → Json → Prop) (dec : Json → Option α) (path : List String) (j : Json) (x : α) : Prop :=
  ∀ j', Trimmed ok path j j' → dec j' = some x

theorem Reads.self {dec : Json → Option α} {path : List String} {j : Json} {x : α} (h : Reads ok dec path j x) :
    dec j = some x := h j (.same path j)

theorem reads_of_closed {dec : Json → Option α} {path : List String} {j : Json} {x : α} (hc : Closed ok path)
    (h : dec j = some x) : Reads ok dec path j x := by
  intro j' hj
  rw [hj.eq_self hc, h]

theorem required_of_dropped {dec : Json → Option α} {path : List String} {name : String} {j : Json} {x : α}
    {fs fs' : List (String × Json)} (h : Dropped ok path fs fs') (hnd : (fs.map Prod.fst).Nodup) (hmem : (name, j) ∈ fs)
    (hno : ¬ ok (name :: path) j) (hread : Reads ok dec (name :: path) j x) : required dec name fs' = some x := by
  unfold required
  rcases h.values_eq hnd hmem with ⟨j', hj, hv⟩ | ⟨hok, -⟩
  · rw [hv]
    exact hread j' hj
  · exact absurd hok hno

theorem defaulted_of_dropped {dec : Json → Option α} {path : List String} {name : String} {j : Json} {x d : α}
    {fs fs' : List (String × Json)} (h : Dropped ok path fs fs') (hnd : (fs.map Prod.fst).Nodup) (hmem : (name, j) ∈ fs)
    (hdef : ok (name :: path) j → x = d) (hread : Reads ok dec (name :: path) j x) :
    defaulted d dec name fs' = some x := by
  unfold defaulted
  rcases h.values_eq hnd hmem with ⟨j', hj, hv⟩ | ⟨hok, hv⟩
  · rw [hv]
    exact hread j' hj
  · rw [hv, hdef hok]

theorem optional_of_dropped {enc : α → Json} {dec : Json → Option α} {path : List String} {name : String} {o : Option α}
    {fs fs' : List (String × Json)} (h : Dropped ok path fs fs') (hnd : (fs.map Prod.fst).Nodup)
    (hmem : (name, encOption enc o) ∈ fs)
    (hread : ∀ x, o = some x → ¬ ok (name :: path) (enc x) ∧ Reads ok (option dec) (name :: path) (enc x) (some x)) :
    optional dec name fs' = some o := by
  unfold optional
  cases o with
  | none =>
    rcases h.values_eq hnd hmem with ⟨j', hj, hv⟩ | ⟨-, hv⟩
    · cases hj
      rw [hv]
      rfl
    · rw [hv]
  | some x =>
    obtain ⟨hno, hread⟩ := hread x rfl
    rcases h.values_eq hnd hmem with ⟨j', hj, hv⟩ | ⟨hok, -⟩
    · rw [hv]
      exact hread j' hj
    · exact absurd hok hno

theorem mapM_of_trimmedItems {enc : α → Json} {dec : Json → Option α} {path : List String} :
    ∀ {l : List α} {l' : List Json},
    (∀ x ∈ l, Reads ok dec path (enc x) x) → TrimmedItems ok path (l.map enc) l' → l'.mapM dec = some l
  | [], _, _, .nil _ => rfl
  | x :: l, _, h, .cons hx hl => by
    have htail := mapM_of_trimmedItems (fun y hy => h y (List.mem_cons_of_mem x hy)) hl
    rw [List.mapM_cons, h x List.mem_cons_self _ hx, htail]
    rfl

/-- Trimming reaches each item of an array by itself. -/
theorem reads_array {enc : α → Json} {dec : Json → Option α} {path : List String} {l : List α}
    (h : ∀ x ∈ l, Reads ok dec path (enc x) x) : Reads ok (array dec) path (.arr (l.map enc)) l := by
  intro j hj
  obtain ⟨l', rfl, hl⟩ := hj.arr_inv
  exact mapM_of_trimmedItems h hl

/-- A variant's tag stays, its content is trimmed. -/
theorem Trimmed.variant_inv {path : List String} {tag : String} {j j' : Json}
    (h : Trimmed ok path (.obj [(tag, j)]) j') (hno : ¬ ok (tag :: path) j) :
    ∃ c, variant j' = some (tag, some c) ∧ Trimmed ok (tag :: path) j c := by
  obtain ⟨fs', rfl, hfs⟩ := h.obj_inv
  cases hfs with
  | keep _ hj hnil =>
    cases hnil
    exact ⟨_, rfl, hj⟩
  | drop _ hok _ => exact absurd hok hno

theorem Trimmed.str_inv {path : List String} {s : String} {j : Json} (h : Trimmed ok path (.str s) j) : j = .str s := by
  cases h
  rfl

/-! ## Null fields -/

/-- The fields at some paths may be dropped where they are null. -/
def NullAt (paths : List (List String)) (path : List String) (j : Json) : Prop := path ∈ paths ∧ j = .null

section NullFields

variable {paths : List (List String)} {dec : Json → Option α} {path : List String} {name : String} {j : Json} {x : α}
  {fs fs' : List (String × Json)}

theorem closed_nullAt (h : ∀ q ∈ paths, path <:+ q → q = path) : Closed (NullAt paths) path :=
  fun q _ hq hsuf => h q hq.1 hsuf

theorem required_nullAt (h : Dropped (NullAt paths) path fs fs') (hnd : (fs.map Prod.fst).Nodup)
    (hmem : (name, j) ∈ fs) (hout : ∀ q ∈ paths, ¬ name :: path <:+ q) (hdec : dec j = some x) :
    required dec name fs' = some x := by
  have hno : ¬ NullAt paths (name :: path) j := fun hj => hout _ hj.1 (List.suffix_refl _)
  exact required_of_dropped h hnd hmem hno (reads_of_closed (closed_nullAt (fun q hq hsuf => absurd hsuf (hout q hq))) hdec)

theorem optional_nullAt (enc : α → Json) {o : Option α} (h : Dropped (NullAt paths) path fs fs')
    (hnd : (fs.map Prod.fst).Nodup) (hmem : (name, encOption enc o) ∈ fs)
    (hread : ∀ x, o = some x → enc x ≠ .null ∧ Reads (NullAt paths) (option dec) (name :: path) (enc x) (some x)) :
    optional dec name fs' = some o :=
  optional_of_dropped h hnd hmem (fun x hx => ⟨fun hnull => (hread x hx).1 hnull.2, (hread x hx).2⟩)

theorem option_of_ne_null (h : j ≠ .null) : option dec j = (dec j).map some := by
  cases j <;> first | rfl | exact absurd rfl h

/-- An `Option` field with nothing to drop in its values. -/
theorem optional_nullAt_closed (enc : α → Json) {o : Option α} (h : Dropped (NullAt paths) path fs fs')
    (hnd : (fs.map Prod.fst).Nodup) (hmem : (name, encOption enc o) ∈ fs)
    (hpath : ∀ q ∈ paths, name :: path <:+ q → q = name :: path)
    (hread : ∀ x, o = some x → enc x ≠ .null ∧ dec (enc x) = some x) : optional dec name fs' = some o := by
  refine optional_nullAt enc h hnd hmem (fun x hx => ?_)
  obtain ⟨hne, hdec⟩ := hread x hx
  exact ⟨hne, reads_of_closed (closed_nullAt hpath) (by rw [option_of_ne_null hne, hdec, Option.map_some])⟩

/-- What is written without its `none` fields is the whole with null fields dropped. -/
theorem dropped_skipNone {enc : α → Json} {gs gs' : List (String × Json)} (o : Option α) (hname : name :: path ∈ paths)
    (h : Dropped (NullAt paths) path gs gs') :
    Dropped (NullAt paths) path ((name, encOption enc o) :: gs) (skipNone name enc o ++ gs') := by
  cases o with
  | none => exact .drop name ⟨hname, rfl⟩ h
  | some x => exact .keep name (.same _ _) h

end NullFields

end Serde
