/-! # Byte positions

A position in a text can be given by the number of bytes that the UTF-8 form of the text has before
it. Text is taken out between two positions that lie between characters; other positions are refused.
-/

namespace ProcLang.Text

set_option autoImplicit false

def byteSize : List Char → Nat
  | [] => 0
  | c :: rest => c.utf8Size + byteSize rest

/-- The characters behind a byte position. -/
def behind? : List Char → Nat → Option (List Char)
  | text, 0 => some text
  | [], _ + 1 => none
  | c :: rest, byte + 1 =>
    if c.utf8Size ≤ byte + 1 then behind? rest (byte + 1 - c.utf8Size) else none

/-- The characters before a byte position. -/
def front? : List Char → Nat → Option (List Char)
  | _, 0 => some []
  | [], _ + 1 => none
  | c :: rest, byte + 1 =>
    if c.utf8Size ≤ byte + 1 then (front? rest (byte + 1 - c.utf8Size)).map (c :: ·) else none

/-- The characters from one byte position to another. -/
def slice? (text : List Char) (start stop : Nat) : Option (List Char) :=
  if start ≤ stop then (behind? text start).bind (front? · (stop - start)) else none

variable {text front middle back : List Char} {byte start stop : Nat}

@[simp] theorem byteSize_append (front back : List Char) :
    byteSize (front ++ back) = byteSize front + byteSize back := by
  induction front with
  | nil => simp [byteSize]
  | cons c front ih => simp [byteSize, ih, Nat.add_assoc]

theorem byteSize_toList (text : String) : byteSize text.toList = text.utf8ByteSize := by
  have hOfList (characters : List Char) :
      byteSize characters = (String.ofList characters).utf8ByteSize := by
    induction characters with
    | nil => rfl
    | cons c rest ih => simp [byteSize, ih]
  rw [hOfList, String.ofList_toList]

theorem behind?_cons (c : Char) (rest : List Char) (byte : Nat) :
    behind? (c :: rest) (c.utf8Size + byte) = behind? rest byte := by
  obtain ⟨width, hWidth⟩ := Nat.exists_eq_add_one.mpr c.utf8Size_pos
  have hSucc : c.utf8Size + byte = width + byte + 1 := by omega
  rw [hSucc, behind?, if_pos (by omega)]
  congr 1
  omega

theorem front?_cons (c : Char) (rest : List Char) (byte : Nat) :
    front? (c :: rest) (c.utf8Size + byte) = (front? rest byte).map (c :: ·) := by
  obtain ⟨width, hWidth⟩ := Nat.exists_eq_add_one.mpr c.utf8Size_pos
  have hSucc : c.utf8Size + byte = width + byte + 1 := by omega
  rw [hSucc, front?, if_pos (by omega)]
  congr 2
  omega

theorem behind?_eq_some_iff :
    behind? text byte = some back ↔ ∃ front, text = front ++ back ∧ byteSize front = byte := by
  constructor
  · intro h
    fun_induction behind? text byte with
    | case1 text =>
      cases h
      exact ⟨[], rfl, rfl⟩
    | case2 => cases h
    | case3 c rest byte hFits ih =>
      obtain ⟨front, rfl, hSize⟩ := ih h
      exact ⟨c :: front, rfl, by rw [byteSize]; omega⟩
    | case4 => cases h
  · rintro ⟨front, rfl, rfl⟩
    induction front with
    | nil => simp [behind?, byteSize]
    | cons c front ih => rw [byteSize, List.cons_append, behind?_cons, ih]

theorem front?_eq_some_iff :
    front? text byte = some front ↔ ∃ back, text = front ++ back ∧ byteSize front = byte := by
  constructor
  · intro h
    fun_induction front? text byte generalizing front with
    | case1 text =>
      cases h
      exact ⟨text, rfl, rfl⟩
    | case2 => cases h
    | case3 c rest byte hFits ih =>
      obtain ⟨front, hFront, rfl⟩ := Option.map_eq_some_iff.mp h
      obtain ⟨back, rfl, hSize⟩ := ih hFront
      exact ⟨back, rfl, by rw [byteSize]; omega⟩
    | case4 => cases h
  · rintro ⟨back, rfl, rfl⟩
    induction front with
    | nil => simp [front?, byteSize]
    | cons c front ih => rw [byteSize, List.cons_append, front?_cons, ih, Option.map_some]

/-- What is taken out is what the text has between the two positions. -/
theorem slice?_eq_some_iff : slice? text start stop = some middle ↔
    ∃ front back, text = front ++ (middle ++ back) ∧ byteSize front = start ∧
      byteSize (front ++ middle) = stop := by
  unfold slice?
  constructor
  · intro h
    split at h
    · obtain ⟨rest, hBehind, hFront⟩ := Option.bind_eq_some_iff.mp h
      obtain ⟨front, rfl, hStart⟩ := behind?_eq_some_iff.mp hBehind
      obtain ⟨back, rfl, hMiddle⟩ := front?_eq_some_iff.mp hFront
      refine ⟨front, back, rfl, hStart, ?_⟩
      rw [byteSize_append]
      omega
    · cases h
  · rintro ⟨front, back, rfl, rfl, rfl⟩
    have hBehind : behind? (front ++ (middle ++ back)) (byteSize front) = some (middle ++ back) :=
      behind?_eq_some_iff.mpr ⟨front, rfl, rfl⟩
    have hFront : front? (middle ++ back) (byteSize middle) = some middle :=
      front?_eq_some_iff.mpr ⟨back, rfl, rfl⟩
    rw [byteSize_append, if_pos (Nat.le_add_right _ _), Nat.add_sub_cancel_left, hBehind,
      Option.bind_some, hFront]

end ProcLang.Text
