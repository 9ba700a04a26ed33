import OpenMediaTransport.CheckedMemory

/-!
BGRA to RGBA in `color.rs`: one pixel at a time, or four of them in a register of 16 bytes.
The intrinsics are as Intel specifies them; a load or store that leaves its buffer is a fault.
-/

namespace OpenMediaTransport.Color

open CheckedMemory LittleEndian

/-- `__m128i` by its bytes, the lowest first. -/
abbrev M128i := Fin 16 → UInt8

/-- `_mm_set_epi8`: the arguments begin with the highest byte. -/
def mmSetEpi8 (e15 e14 e13 e12 e11 e10 e9 e8 e7 e6 e5 e4 e3 e2 e1 e0 : UInt8) : M128i :=
  fun lane => [e0, e1, e2, e3, e4, e5, e6, e7, e8, e9, e10, e11, e12, e13, e14, e15].get lane

/-- `_mm_shuffle_epi8`: a control byte with its high bit set clears the lane, another one
picks a byte by its low four bits. -/
def mmShuffleEpi8 (a b : M128i) : M128i := fun lane =>
  if b lane &&& 0x80 = 0 then a (Fin.ofNat 16 (b lane &&& 0x0F).toNat) else 0

def mmLoaduSi128 (buffer : List UInt8) (start : Nat) : Except Fault M128i := do
  let bytes ← readRange buffer start (start + 16)
  .ok fun lane => bytes.getD lane 0

def mmStoreuSi128 (buffer : List UInt8) (start : Nat) (value : M128i) :
    Except Fault (List UInt8) :=
  copyRange buffer start (start + 16) (List.ofFn value)

def bgraToRgbaScalar : List UInt8 → List UInt8 → List UInt8
  | b :: g :: r :: a :: bgra, _ :: _ :: _ :: _ :: rgba =>
      r :: g :: b :: a :: bgraToRgbaScalar bgra rgba
  | _, rgba => rgba

def shuffle : M128i := mmSetEpi8 15 12 13 14 11 8 9 10 7 4 5 6 3 0 1 2

def swizzleLoop (bgra : List UInt8) (simdEnd i : Nat) (rgba : List UInt8) :
    Except Fault (Nat × List UInt8) :=
  if i < simdEnd then
    match mmLoaduSi128 bgra i with
    | .error fault => .error fault
    | .ok v =>
        match mmStoreuSi128 rgba i (mmShuffleEpi8 v shuffle) with
        | .error fault => .error fault
        | .ok rgba => swizzleLoop bgra simdEnd (i + 16) rgba
  else .ok (i, rgba)
termination_by simdEnd - i

def bgraToRgbaSsse3 (bgra rgba : List UInt8) : Except Fault (List UInt8) := do
  let len := bgra.length
  -- `len & !15` is `len` without the bits it has in common with 15
  let (i, rgba) ← swizzleLoop bgra (len - (len &&& 15)) 0 rgba
  if i < len then do
    let source ← readRange bgra i len
    let tail ← readRange rgba i rgba.length
    .ok (rgba.take i ++ bgraToRgbaScalar source tail)
  else .ok rgba

def bgraToRgbaInto (ssse3 : Bool) (bgra rgba : List UInt8) : Except Fault (List UInt8) :=
  let n := min bgra.length rgba.length
  if ssse3 then do
    let front ← bgraToRgbaSsse3 (bgra.take n) (rgba.take n)
    .ok (front ++ rgba.drop n)
  else .ok (bgraToRgbaScalar (bgra.take n) (rgba.take n) ++ rgba.drop n)

theorem pixel_front {α : Type} (items : List α) (rest : Nat) (long : items.length = rest + 4) :
    ∃ b g r a others, items = b :: g :: r :: a :: others ∧ others.length = rest := by
  match items, long with
  | b :: g :: r :: a :: others, long => exact ⟨b, g, r, a, others, rfl, by simpa using long⟩

def swizzled (block : List UInt8) : List UInt8 :=
  List.ofFn (mmShuffleEpi8 (fun lane => block.getD lane 0) shuffle)

/-- A block in a register is four pixels of the scalar loop. -/
theorem scalar_block (block old bgra rgba : List UInt8) (width : block.length = 16)
    (same : old.length = 16) :
    bgraToRgbaScalar (block ++ bgra) (old ++ rgba) = swizzled block ++ bgraToRgbaScalar bgra rgba := by
  obtain ⟨b0, g0, r0, a0, block1, rfl, width1⟩ := pixel_front block 12 width
  obtain ⟨b1, g1, r1, a1, block2, rfl, width2⟩ := pixel_front block1 8 width1
  obtain ⟨b2, g2, r2, a2, block3, rfl, width3⟩ := pixel_front block2 4 width2
  obtain ⟨b3, g3, r3, a3, block4, rfl, width4⟩ := pixel_front block3 0 width3
  obtain ⟨_, _, _, _, old1, rfl, same1⟩ := pixel_front old 12 same
  obtain ⟨_, _, _, _, old2, rfl, same2⟩ := pixel_front old1 8 same1
  obtain ⟨_, _, _, _, old3, rfl, same3⟩ := pixel_front old2 4 same2
  obtain ⟨_, _, _, _, old4, rfl, same4⟩ := pixel_front old3 0 same3
  cases List.eq_nil_of_length_eq_zero width4
  cases List.eq_nil_of_length_eq_zero same4
  rfl

theorem swizzled_length (block : List UInt8) : (swizzled block).length = 16 :=
  List.length_ofFn

/-- One round of the loop, with what stands before and behind the block. -/
theorem loop_round (front block back done old rest : List UInt8) (simdEnd : Nat)
    (more : front.length < simdEnd) (level : done.length = front.length)
    (width : block.length = 16) (same : old.length = 16) :
    swizzleLoop (front ++ (block ++ back)) simdEnd front.length (done ++ (old ++ rest)) =
      swizzleLoop (front ++ (block ++ back)) simdEnd (front.length + 16)
        (done ++ (swizzled block ++ rest)) := by
  have inside : front.length + 16 ≤ (front ++ (block ++ back)).length := by
    simp only [List.length_append]
    omega
  have cut : slice (front ++ (block ++ back)) front.length (front.length + 16) = block := by
    rw [slice_skip _ _ _ _ (Nat.le_refl _), Nat.sub_self, Nat.add_sub_cancel_left]
    exact slice_head block back 16 width
  have loaded : mmLoaduSi128 (front ++ (block ++ back)) front.length =
      .ok fun lane => block.getD lane 0 := by
    rw [mmLoaduSi128, readRange_inside _ _ _ (Nat.le_add_right _ 16) inside, cut]
    rfl
  have stored : mmStoreuSi128 (done ++ (old ++ rest)) front.length
      (mmShuffleEpi8 (fun lane => block.getD lane 0) shuffle) =
        .ok (done ++ (swizzled block ++ rest)) :=
    copyRange_between done old rest (swizzled block) front.length (front.length + 16) level.symm
      (by rw [level, same]) (by rw [swizzled_length, same])
  rw [swizzleLoop, if_pos more, loaded]
  dsimp only
  rw [stored]

theorem whole_blocks (len : Nat) : len - (len &&& 15) = 16 * (len / 16) := by
  have low : len &&& 15 = len % 16 := Nat.and_two_pow_sub_one_eq_mod len 4
  omega

theorem loop_finishes (blocks : Nat) (front source done old : List UInt8)
    (level : done.length = front.length) (same : old.length = source.length)
    (counted : source.length / 16 = blocks) :
    ∃ i rgba, swizzleLoop (front ++ source) (front.length + 16 * blocks) front.length
        (done ++ old) = .ok (i, rgba) ∧
      i = front.length + 16 * blocks ∧ rgba.length = done.length + old.length ∧
      rgba.take i ++ bgraToRgbaScalar ((front ++ source).drop i) (rgba.drop i) =
        done ++ bgraToRgbaScalar source old := by
  induction blocks generalizing front source done old with
  | zero =>
      refine ⟨front.length, done ++ old, ?_, by omega, List.length_append, ?_⟩
      · rw [swizzleLoop, if_neg (by omega)]
      · rw [List.drop_left, ← level, List.take_left, List.drop_left]
  | succ blocks ih =>
      have long : 16 ≤ source.length := by omega
      have width : (source.take 16).length = 16 := by simp [long]
      have oldWidth : (old.take 16).length = 16 := by simp [same, long]
      have shorter : (source.drop 16).length / 16 = blocks := by
        rw [List.length_drop]
        omega
      obtain ⟨i, rgba, looped, stops, sized, finished⟩ :=
        ih (front ++ source.take 16) (source.drop 16) (done ++ swizzled (source.take 16))
          (old.drop 16)
          (by rw [List.length_append, List.length_append, swizzled_length, width, level])
          (by rw [List.length_drop, List.length_drop, same]) shorter
      have start : (front ++ source.take 16).length = front.length + 16 := by
        rw [List.length_append, width]
      have round := loop_round front (source.take 16) (source.drop 16) done (old.take 16)
        (old.drop 16) (front.length + 16 * (blocks + 1)) (by omega) level width oldWidth
      rw [List.append_assoc, List.append_assoc, List.take_append_drop, start] at looped
      rw [List.take_append_drop, List.take_append_drop] at round
      rw [List.append_assoc, List.append_assoc, List.take_append_drop] at finished
      have target : front.length + 16 + 16 * blocks = front.length + 16 * (blocks + 1) := by omega
      rw [target] at looped
      refine ⟨i, rgba, by rw [round, looped], by rw [stops, start, target], ?_, ?_⟩
      · rw [sized, List.length_append, swizzled_length, List.length_drop]
        omega
      · have pixels := scalar_block (source.take 16) (old.take 16) (source.drop 16) (old.drop 16)
          width oldWidth
        rw [List.take_append_drop, List.take_append_drop] at pixels
        rw [finished, pixels]

theorem ssse3_scalar (bgra rgba : List UInt8) (same : rgba.length = bgra.length) :
    bgraToRgbaSsse3 bgra rgba = .ok (bgraToRgbaScalar bgra rgba) := by
  obtain ⟨i, written, looped, stops, sized, finished⟩ :=
    loop_finishes (bgra.length / 16) [] bgra [] rgba rfl same rfl
  simp only [List.nil_append, List.length_nil, Nat.zero_add] at looped stops sized finished
  have swept : swizzleLoop bgra (bgra.length - (bgra.length &&& 15)) 0 rgba = .ok (i, written) := by
    rw [whole_blocks]
    exact looped
  simp only [bgraToRgbaSsse3, swept, bind, Except.bind]
  split
  · rename_i rest
    rw [readRange_tail bgra i (Nat.le_of_lt rest), readRange_tail written i (by omega)]
    dsimp only
    rw [finished]
  · rename_i complete
    rw [List.take_of_length_le (by omega), List.drop_eq_nil_of_le (by omega),
      List.drop_eq_nil_of_le (by omega)] at finished
    rw [← finished]
    simp [bgraToRgbaScalar]

theorem scalar_length (bgra rgba : List UInt8) :
    (bgraToRgbaScalar bgra rgba).length = rgba.length := by
  induction bgra, rgba using bgraToRgbaScalar.induct with
  | case1 b g r a bgra _ _ _ _ rgba ih => simp [bgraToRgbaScalar, ih]
  | case2 bgra rgba short => rw [bgraToRgbaScalar.eq_2 bgra rgba short]

theorem scalar_untouched (bgra rgba : List UInt8) :
    (bgraToRgbaScalar bgra rgba).drop (4 * (bgra.length / 4)) =
      rgba.drop (4 * (bgra.length / 4)) := by
  induction bgra, rgba using bgraToRgbaScalar.induct with
  | case1 b g r a bgra _ _ _ _ rgba ih =>
      have pixels : 4 * ((b :: g :: r :: a :: bgra).length / 4) = 4 * (bgra.length / 4) + 4 := by
        simp only [List.length_cons]
        omega
      rw [pixels, bgraToRgbaScalar]
      exact ih
  | case2 bgra rgba short => rw [bgraToRgbaScalar.eq_2 bgra rgba short]

theorem scalar_twice (bgra first second : List UInt8) (whole : bgra.length % 4 = 0)
    (firstSame : first.length = bgra.length) (secondSame : second.length = bgra.length) :
    bgraToRgbaScalar (bgraToRgbaScalar bgra first) second = bgra := by
  induction bgra, first using bgraToRgbaScalar.induct generalizing second with
  | case1 b g r a bgra _ _ _ _ first ih =>
      obtain ⟨_, _, _, _, others, rfl, left⟩ := pixel_front second bgra.length secondSame
      simp only [List.length_cons] at whole firstSame
      rw [bgraToRgbaScalar, bgraToRgbaScalar, ih others (by omega) (by omega) left]
  | case2 bgra first short =>
      have none : bgra.length = 0 := by
        by_contra some
        obtain ⟨b, g, r, a, rest, rfl, -⟩ := pixel_front bgra (bgra.length - 4) (by omega)
        obtain ⟨_, _, _, _, others, rfl, -⟩ := pixel_front first rest.length firstSame
        exact short b g r a rest _ _ _ _ others rfl rfl
      cases List.eq_nil_of_length_eq_zero none
      cases List.eq_nil_of_length_eq_zero firstSame
      cases List.eq_nil_of_length_eq_zero secondSame
      rfl

theorem into_scalar (ssse3 : Bool) (bgra rgba : List UInt8) :
    bgraToRgbaInto ssse3 bgra rgba =
      .ok (bgraToRgbaScalar (bgra.take (min bgra.length rgba.length))
          (rgba.take (min bgra.length rgba.length)) ++
        rgba.drop (min bgra.length rgba.length)) := by
  cases ssse3 with
  | false => rfl
  | true =>
      have same : (rgba.take (min bgra.length rgba.length)).length =
          (bgra.take (min bgra.length rgba.length)).length := by
        simp only [List.length_take]
        omega
      simp only [bgraToRgbaInto, if_true, ssse3_scalar _ _ same, bind, Except.bind]

/-- SIMD equals scalar, whatever the lengths and the destination; what is behind the common
whole pixels is untouched, and whole pixels come back when they are converted twice. -/
theorem bgra_to_rgba_paths :
    (∀ bgra rgba : List UInt8,
      let n := min bgra.length rgba.length
      bgraToRgbaInto true bgra rgba = bgraToRgbaInto false bgra rgba ∧
      ∃ after, bgraToRgbaInto true bgra rgba = .ok after ∧
        after = bgraToRgbaScalar (bgra.take n) (rgba.take n) ++ rgba.drop n ∧
        after.length = rgba.length ∧ after.drop (4 * (n / 4)) = rgba.drop (4 * (n / 4))) ∧
    ∀ (ssse3 : Bool) (bgra first second : List UInt8), bgra.length % 4 = 0 →
      first.length = bgra.length → second.length = bgra.length →
      ∃ rgba, bgraToRgbaInto ssse3 bgra first = .ok rgba ∧
        bgraToRgbaInto ssse3 rgba second = .ok bgra := by
  constructor
  · intro bgra rgba
    dsimp only
    refine ⟨by rw [into_scalar, into_scalar], _, into_scalar true bgra rgba, rfl, ?_, ?_⟩
    · simp only [List.length_append, scalar_length, List.length_take, List.length_drop]
      omega
    · have front : (bgra.take (min bgra.length rgba.length)).length =
          min bgra.length rgba.length := by
        simp only [List.length_take]
        omega
      have kept := scalar_untouched (bgra.take (min bgra.length rgba.length))
        (rgba.take (min bgra.length rgba.length))
      rw [front] at kept
      have inside : 4 * (min bgra.length rgba.length / 4) ≤
          (rgba.take (min bgra.length rgba.length)).length := by
        simp only [List.length_take]
        omega
      rw [List.drop_append_of_le_length (by rw [scalar_length]; exact inside), kept,
        ← List.drop_append_of_le_length inside, List.take_append_drop]
  · intro ssse3 bgra first second whole firstSame secondSame
    have once := into_scalar ssse3 bgra first
    rw [firstSame, Nat.min_self, List.take_of_length_le (Nat.le_refl _),
      List.take_of_length_le (Nat.le_of_eq firstSame),
      List.drop_eq_nil_of_le (Nat.le_of_eq firstSame), List.append_nil] at once
    have between : (bgraToRgbaScalar bgra first).length = bgra.length := by
      rw [scalar_length, firstSame]
    have twice := into_scalar ssse3 (bgraToRgbaScalar bgra first) second
    rw [between, secondSame, Nat.min_self, List.take_of_length_le (Nat.le_of_eq between),
      List.take_of_length_le (Nat.le_of_eq secondSame),
      List.drop_eq_nil_of_le (Nat.le_of_eq secondSame), List.append_nil,
      scalar_twice bgra first second whole firstSame secondSame] at twice
    exact ⟨_, once, twice⟩

theorem bgra_to_rgba_paths_five :
    ∃ rgba, bgraToRgbaInto true ((List.range 20).map UInt8.ofNat) (List.replicate 20 7) = .ok rgba ∧
      bgraToRgbaInto true rgba (List.replicate 20 9) = .ok ((List.range 20).map UInt8.ofNat) :=
  bgra_to_rgba_paths.2 true _ (List.replicate 20 7) (List.replicate 20 9) rfl rfl rfl

end OpenMediaTransport.Color
