import Portcullis.Lib.SortByKey
/-!
# FirstBefore — the first earlier element a test accepts

`firstBefore p [] l` pairs each element of `l` with the first element before it that `p` accepts for it, where there is
one.  On a list that runs in some order the pairs do not depend on the list: each is an element with the least of the
accepted elements that precede it (`mem_firstBefore_iff_of_pairwise`).
-/
namespace FirstBefore

open List
open SortBy

variable {α β : Type} (p : α → α → Bool)

/-- `earlier` is what has been walked already. -/
def firstBefore : List α → List α → List (α × α)
  | _, [] => []
  | earlier, x :: l =>
    match earlier.find? (fun e => p e x) with
    | some e => (e, x) :: firstBefore (earlier ++ [x]) l
    | none => firstBefore (earlier ++ [x]) l

theorem firstBefore_cons (earlier : List α) (x : α) (l : List α) :
    firstBefore p earlier (x :: l) = match earlier.find? (fun e => p e x) with
      | some e => (e, x) :: firstBefore p (earlier ++ [x]) l
      | none => firstBefore p (earlier ++ [x]) l := rfl

theorem mem_firstBefore_iff {e x : α} : ∀ {l earlier : List α}, (e, x) ∈ firstBefore p earlier l ↔
    ∃ pre post, l = pre ++ x :: post ∧ (earlier ++ pre).find? (fun e => p e x) = some e
  | [], earlier => by simp [firstBefore]
  | y :: l, earlier => by
    have ih : (e, x) ∈ firstBefore p (earlier ++ [y]) l ↔ ∃ pre post, l = pre ++ x :: post ∧
        (earlier ++ [y] ++ pre).find? (fun e => p e x) = some e := mem_firstBefore_iff
    have hsplit : (∃ pre post, y :: l = pre ++ x :: post ∧ (earlier ++ pre).find? (fun e => p e x) = some e) ↔
        (y = x ∧ earlier.find? (fun e => p e x) = some e) ∨ (e, x) ∈ firstBefore p (earlier ++ [y]) l := by
      rw [ih]
      constructor
      · rintro ⟨pre, post, heq, h⟩
        cases pre with
        | nil =>
          simp only [List.nil_append, List.cons.injEq] at heq
          exact Or.inl ⟨heq.1, by simpa using h⟩
        | cons z pre =>
          simp only [List.cons_append, List.cons.injEq] at heq
          obtain ⟨rfl, rfl⟩ := heq
          exact Or.inr ⟨pre, post, rfl, by simpa using h⟩
      · rintro (⟨rfl, h⟩ | ⟨pre, post, rfl, h⟩)
        · exact ⟨[], l, rfl, by simpa using h⟩
        · exact ⟨y :: pre, post, rfl, by simpa using h⟩
    rw [hsplit, firstBefore_cons]
    by_cases hyx : y = x
    · subst hyx
      cases hf : earlier.find? (fun e => p e y) with
      | none => simp
      | some f => simp [eq_comm]
    · cases hf : earlier.find? (fun e => p e y) with
      | none => simp [hyx]
      | some f => simp [hyx, Ne.symm hyx]

/-- Each element is paired at most once. -/
theorem map_snd_firstBefore_sublist : ∀ l earlier : List α, (firstBefore p earlier l).map Prod.snd <+ l
  | [], _ => List.Sublist.refl []
  | x :: l, earlier => by
    have ih := map_snd_firstBefore_sublist l (earlier ++ [x])
    rw [firstBefore_cons]
    split
    · exact List.Sublist.cons_cons x ih
    · exact ih.cons x

theorem firstBefore_map (f : β → α) : ∀ l earlier : List β, firstBefore p (earlier.map f) (l.map f) =
    (firstBefore (fun a b => p (f a) (f b)) earlier l).map (Prod.map f f)
  | [], _ => rfl
  | x :: l, earlier => by
    have ih := firstBefore_map f l (earlier ++ [x])
    rw [List.map_append, List.map_singleton] at ih
    have hfind : (earlier.map f).find? (fun e => p e (f x)) = (earlier.find? (fun e => p (f e) (f x))).map f :=
      List.find?_map
    rw [List.map_cons, firstBefore_cons, firstBefore_cons, hfind, ih]
    cases hf : earlier.find? (fun e => p (f e) (f x)) with
    | none => simp
    | some e => simp

/-- **An element is paired exactly when an earlier one is accepted for it.** -/
theorem mem_map_snd_firstBefore_iff {x : α} {l : List α} :
    x ∈ (firstBefore p [] l).map Prod.snd ↔ ∃ e, [e, x] <+ l ∧ p e x = true := by
  simp only [List.mem_map, Prod.exists, mem_firstBefore_iff, List.nil_append, exists_eq_right]
  constructor
  · rintro ⟨e, pre, post, rfl, he⟩
    refine ⟨e, pair_sublist_iff_append.2 ⟨pre, post, rfl, List.mem_of_find?_eq_some he⟩, ?_⟩
    simpa using List.find?_some he
  · rintro ⟨e, hsub, hp⟩
    obtain ⟨pre, post, rfl, he⟩ := pair_sublist_iff_append.1 hsub
    have hsome : (pre.find? (fun e => p e x)).isSome = true := List.find?_isSome.2 ⟨e, he, hp⟩
    obtain ⟨f, hf⟩ := Option.isSome_iff_exists.1 hsome
    exact ⟨f, pre, post, rfl, hf⟩

theorem firstBefore_eq_nil_iff {l : List α} : firstBefore p [] l = [] ↔ ∀ e x, [e, x] <+ l → ¬ p e x = true := by
  rw [← List.map_eq_nil_iff (f := Prod.snd), List.eq_nil_iff_forall_not_mem]
  simp only [mem_map_snd_firstBefore_iff, not_exists, not_and]
  exact ⟨fun h e x => h x e, fun h x e => h e x⟩

/-- **In a list that runs in an order**, `find?` finds the least. -/
theorem find?_eq_some_iff_of_pairwise {q : α → Bool} {R : α → α → Prop} (hasymm : ∀ a b, R a b → ¬ R b a) {l : List α}
    (hR : l.Pairwise R) {x : α} : l.find? q = some x ↔ x ∈ l ∧ q x = true ∧ ∀ z ∈ l, q z = true → ¬ R z x := by
  rw [List.find?_eq_some_iff_append]
  constructor
  · rintro ⟨hq, as, bs, rfl, has⟩
    refine ⟨by simp, hq, fun z hz hqz hzx => ?_⟩
    rcases List.mem_append.1 hz with hz | hz
    · simpa [hqz] using has z hz
    · rcases List.mem_cons.1 hz with rfl | hz
      · exact hasymm z z hzx hzx
      · exact hasymm x z (List.rel_of_pairwise_cons (List.pairwise_append.1 hR).2.1 hz) hzx
  · rintro ⟨hx, hq, hleast⟩
    obtain ⟨as, bs, rfl⟩ := List.append_of_mem hx
    refine ⟨hq, as, bs, rfl, fun a ha => ?_⟩
    have hax : R a x := (List.pairwise_append.1 hR).2.2 a ha x List.mem_cons_self
    have hqa : ¬ q a = true := fun hqa => hleast a (by simp [ha]) hqa hax
    simpa using hqa

/-- **In a list that runs in an order**, the partner is the least accepted element before. -/
theorem mem_firstBefore_iff_of_pairwise {R : α → α → Prop} (hasymm : ∀ a b, R a b → ¬ R b a) {l : List α}
    (hR : l.Pairwise R) {e x : α} : (e, x) ∈ firstBefore p [] l ↔
      x ∈ l ∧ e ∈ l ∧ R e x ∧ p e x = true ∧ ∀ z ∈ l, R z x → p z x = true → ¬ R z e := by
  -- what precedes `x` is what stands before it
  have hbefore : ∀ {pre post : List α}, (pre ++ x :: post).Pairwise R → ∀ z ∈ pre ++ x :: post, R z x → z ∈ pre := by
    intro pre post hR z hz hzx
    rcases List.mem_append.1 hz with hz | hz
    · exact hz
    · rcases List.mem_cons.1 hz with rfl | hz
      · exact absurd hzx (hasymm z z hzx)
      · have hxz : R x z := List.rel_of_pairwise_cons (List.pairwise_append.1 hR).2.1 hz
        exact absurd hzx (hasymm x z hxz)
  rw [mem_firstBefore_iff]
  simp only [List.nil_append]
  constructor
  · rintro ⟨pre, post, rfl, he⟩
    obtain ⟨hpre, -, hcross⟩ := List.pairwise_append.1 hR
    obtain ⟨he, hpe, hleast⟩ := (find?_eq_some_iff_of_pairwise hasymm hpre).1 he
    exact ⟨by simp, by simp [he], hcross e he x List.mem_cons_self, hpe,
      fun z hz hzx hpz => hleast z (hbefore hR z hz hzx) hpz⟩
  · rintro ⟨hx, he, hex, hpe, hleast⟩
    obtain ⟨pre, post, rfl⟩ := List.append_of_mem hx
    obtain ⟨hpre, -, hcross⟩ := List.pairwise_append.1 hR
    refine ⟨pre, post, rfl, (find?_eq_some_iff_of_pairwise hasymm hpre).2 ⟨hbefore hR e he hex, hpe, fun z hz hpz => ?_⟩⟩
    exact hleast z (by simp [hz]) (hcross z hz x List.mem_cons_self) hpz

/-- **Where the test is transitive no partner is paired itself**: what is accepted for it would have been found first. -/
theorem fst_notMem_of_trans {l : List α} (hnd : l.Nodup)
    (htrans : ∀ a b c, [a, b] <+ l → [b, c] <+ l → p a b = true → p b c = true → p a c = true) {e x : α}
    (h : (e, x) ∈ firstBefore p [] l) : e ∉ (firstBefore p [] l).map Prod.snd := by
  have hbefore : l.Pairwise (fun a b => [a, b] <+ l) := List.pairwise_iff_forall_sublist.2 id
  obtain ⟨-, -, hex, hpe, hleast⟩ :=
    (mem_firstBefore_iff_of_pairwise p (fun _ _ hab => pair_sublist_asymm hnd hab) hbefore).1 h
  rw [mem_map_snd_firstBefore_iff]
  rintro ⟨z, hze, hpz⟩
  have hz : z ∈ l := (mem_of_pair_sublist hze).1
  exact hleast z hz (pair_sublist_trans hnd hze hex) (htrans z e x hze hex hpz hpe) hze

end FirstBefore
