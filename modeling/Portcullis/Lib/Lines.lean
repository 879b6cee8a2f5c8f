import Mathlib.Data.List.Basic
/-!
# Lines — one line of UTF-8 off a stream that may break

`readLine` takes the bytes of a stream up to its first newline, or all of them where it ends without one, and decodes
them; a stream that breaks before a newline, or bytes that are not UTF-8, are an error.  A line that comes whole is read
as it was written, whatever comes after it (`readLine_line`); a line that is cut short is not read, or only a part of it
is (`readLine_cut`).
-/
namespace Lines

open List

/-! ## UTF-8 -/

def encode (l : List Char) : List UInt8 := l.flatMap String.utf8EncodeChar

def decode (bytes : List UInt8) : Option (List Char) := bytes.toByteArray.utf8Decode?.map Array.toList

theorem utf8Encode_eq (l : List Char) : l.utf8Encode = (encode l).toByteArray := rfl

theorem toByteArray_inj {a b : List UInt8} (h : a.toByteArray = b.toByteArray) : a = b := by
  have hdata := congrArg (fun bytes => bytes.data.toList) h
  simpa using hdata

@[simp] theorem encode_append (l m : List Char) : encode (l ++ m) = encode l ++ encode m := List.flatMap_append

@[simp] theorem decode_encode (l : List Char) : decode (encode l) = some l := by
  rw [decode, ← utf8Encode_eq, List.utf8Decode?_utf8Encode]
  rfl

theorem encode_of_decode {bytes : List UInt8} {l : List Char} (h : decode bytes = some l) : encode l = bytes := by
  obtain ⟨chars, hchars, rfl⟩ := Option.map_eq_some_iff.1 h
  have hsome : bytes.toByteArray.utf8Decode?.isSome = true := by rw [hchars]; rfl
  have hget : bytes.toByteArray.utf8Decode?.get hsome = chars := by simp [hchars]
  refine toByteArray_inj ?_
  rw [← utf8Encode_eq, ← hget, ByteArray.utf8Encode_get_utf8Decode?]

/-- No character's bytes are the beginning of another's. -/
theorem prefix_of_encode_prefix {l m : List Char} (h : encode l <+: encode m) : l <+: m := by
  obtain ⟨rest, hrest⟩ := h
  refine List.isPrefix_of_utf8Encode_append_eq_utf8Encode rest.toByteArray ?_
  rw [utf8Encode_eq, utf8Encode_eq, ← hrest, List.toByteArray_append]

def newline : UInt8 := 10

/-- Every byte of a character beyond ASCII is 128 or more. -/
theorem eq_newline_of_mem {c : Char} (h : newline ∈ String.utf8EncodeChar c) : c = '\n' := by
  have hbyte {n : Nat} (hn : 128 ≤ n) (hlt : n < 256) : newline ≠ UInt8.ofNat n := by
    intro heq
    have hnat := congrArg UInt8.toNat heq
    simp only [newline, UInt8.reduceToNat, UInt8.toNat_ofNat', Nat.reducePow] at hnat
    omega
  unfold String.utf8EncodeChar at h
  simp only at h
  split at h
  · have hval : newline = UInt8.ofNat c.val.toNat := List.mem_singleton.1 h
    have hnat := congrArg UInt8.toNat hval
    simp only [newline, UInt8.reduceToNat, UInt8.toNat_ofNat', Nat.reducePow] at hnat
    refine Char.ext (UInt32.toNat_inj.1 ?_)
    show c.val.toNat = 10
    omega
  · exfalso
    split at h
    · simp only [List.mem_cons, List.not_mem_nil, or_false] at h
      rcases h with h | h <;> exact hbyte (by omega) (by omega) h
    · split at h
      · simp only [List.mem_cons, List.not_mem_nil, or_false] at h
        rcases h with h | h | h <;> exact hbyte (by omega) (by omega) h
      · simp only [List.mem_cons, List.not_mem_nil, or_false] at h
        rcases h with h | h | h | h <;> exact hbyte (by omega) (by omega) h

theorem newline_notMem_encode {l : List Char} (h : '\n' ∉ l) : newline ∉ encode l := by
  intro hmem
  obtain ⟨c, hc, hbyte⟩ := List.mem_flatMap.1 hmem
  exact h (eq_newline_of_mem hbyte ▸ hc)

/-! ## Reading a line -/

/-- What there is to read of a stream: the bytes that come, and whether it ends after them or breaks. -/
structure Incoming where
  bytes : List UInt8
  ending : Except String Unit

/-- The bytes up to the first newline, which is kept. -/
def upToNewline : List UInt8 → List UInt8
  | [] => []
  | b :: bytes => if b = newline then [b] else b :: upToNewline bytes

def decodeLine (bytes : List UInt8) : Except String (List Char) :=
  match decode bytes with
  | some line => .ok line
  | none => .error "stream did not contain valid UTF-8"

def readLine (s : Incoming) : Except String (List Char) :=
  if newline ∈ s.bytes then decodeLine (upToNewline s.bytes)
  else
    match s.ending with
    | .ok () => decodeLine s.bytes
    | .error e => .error e

theorem upToNewline_append {bytes rest : List UInt8} (h : newline ∉ bytes) :
    upToNewline (bytes ++ newline :: rest) = bytes ++ [newline] := by
  induction bytes with
  | nil => simp [upToNewline]
  | cons b bytes ih =>
    rw [List.mem_cons, not_or] at h
    rw [List.cons_append, upToNewline, if_neg (Ne.symm h.1), ih h.2, List.cons_append]

theorem encode_line (l : List Char) : encode (l ++ ['\n']) = encode l ++ [newline] := by
  rw [encode_append]
  rfl

/-- **A line that comes whole is read**, whatever comes after it. -/
theorem readLine_line {l : List Char} (h : '\n' ∉ l) (rest : List UInt8) (ending : Except String Unit) :
    readLine ⟨encode (l ++ ['\n']) ++ rest, ending⟩ = .ok (l ++ ['\n']) := by
  have hbytes : encode (l ++ ['\n']) ++ rest = encode l ++ newline :: rest := by
    rw [encode_line, List.append_assoc, List.singleton_append]
  have hmem : newline ∈ encode l ++ newline :: rest := List.mem_append_right _ List.mem_cons_self
  unfold readLine
  simp only [hbytes]
  rw [if_pos hmem, upToNewline_append (newline_notMem_encode h), ← encode_line, decodeLine, decode_encode]

/-- **A line that may be cut short** is read whole, or not at all, or a part of it is read. -/
theorem readLine_cut {l : List Char} (h : '\n' ∉ l) {s : Incoming} (hs : s.bytes <+: encode (l ++ ['\n'])) :
    readLine s = .ok (l ++ ['\n']) ∨ (∃ e, readLine s = .error e) ∨ ∃ part, readLine s = .ok part ∧ part <+: l := by
  obtain ⟨bytes, ending⟩ := s
  by_cases hwhole : bytes = encode (l ++ ['\n'])
  · have hread := readLine_line h [] ending
    rw [List.append_nil, ← hwhole] at hread
    exact Or.inl hread
  · rw [encode_line, List.prefix_concat_iff, ← encode_line] at hs
    have hcut : bytes <+: encode l := hs.resolve_left hwhole
    have hno : newline ∉ bytes := fun hmem => newline_notMem_encode h (hcut.subset hmem)
    unfold readLine
    rw [if_neg hno]
    cases ending with
    | error e => exact Or.inr (Or.inl ⟨e, rfl⟩)
    | ok _ =>
      unfold decodeLine
      cases hd : decode bytes with
      | none => exact Or.inr (Or.inl ⟨_, rfl⟩)
      | some part =>
        refine Or.inr (Or.inr ⟨part, rfl, prefix_of_encode_prefix ?_⟩)
        rw [encode_of_decode hd]
        exact hcut

end Lines
