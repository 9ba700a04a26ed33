import Mathlib.Data.List.TakeWhile
import OpenMediaTransport.CheckedMemory

/-!
`uyvy_to_rgba` of `color.rs`. Every access to a buffer is checked. The positions in the
buffers are below the size of the result, which is checked before them, and the colours are
far inside an `i32`.
-/

namespace OpenMediaTransport.Color

open CheckedMemory

def clampByte (value : Int) : UInt8 := UInt8.ofNat (min (max value 0) 255).toNat

/-- Studio-range BT.709. -/
def yuvToRgb (y u v : UInt8) : UInt8 × UInt8 × UInt8 :=
  let y := max ((y.toNat : Int) - 16) 0
  let u := (u.toNat : Int) - 128
  let v := (v.toNat : Int) - 128
  (clampByte ((298 * y + 459 * v + 128) >>> (8 : Nat)),
    clampByte ((298 * y - 55 * u - 136 * v + 128) >>> (8 : Nat)),
    clampByte ((298 * y + 541 * u + 128) >>> (8 : Nat)))

def drawPixel (rgba : List UInt8) (start : Nat) (colour : UInt8 × UInt8 × UInt8) :
    Except Fault (List UInt8) := do
  let rgba ← writeAt rgba start colour.1
  let rgba ← writeAt rgba (start + 1) colour.2.1
  let rgba ← writeAt rgba (start + 2) colour.2.2
  writeAt rgba (start + 3) 255

/-- The inner loop, over the columns at which a pair begins. -/
def drawRow (uyvy : List UInt8) (w y : Nat) : List Nat → List UInt8 → Except Fault (List UInt8)
  | [], rgba => .ok rgba
  | x :: rest, rgba =>
      let o := y * w * 2 + x * 2
      if uyvy.length ≤ o + 3 then .ok rgba
      else do
        let u ← readAt uyvy o
        let y0 ← readAt uyvy (o + 1)
        let v ← readAt uyvy (o + 2)
        let y1 ← readAt uyvy (o + 3)
        let i0 := (y * w + x) * 4
        let rgba ← drawPixel rgba i0 (yuvToRgb y0 u v)
        let rgba ← if x + 1 < w then drawPixel rgba (i0 + 4) (yuvToRgb y1 u v) else .ok rgba
        drawRow uyvy w y rest rgba

/-- `(0..w).step_by(2)`. -/
def pairColumns (w : Nat) : List Nat := (List.range ((w + 1) / 2)).map (2 * ·)

def uyvyToRgba (uyvy : List UInt8) (width height : UInt32) : Except Fault (List UInt8) := do
  let w := width.toNat
  let h := height.toNat
  let pixels ← mul w h
  let bytes ← mul pixels 4
  let rgba ← filled bytes 0
  (List.range h).foldlM (fun rgba y => drawRow uyvy w y (pairColumns w) rgba) rgba

/-- The pixels that the inner loop draws before it breaks off. -/
def drawnInRow (length w y : Nat) (columns : List Nat) : List Nat :=
  (columns.takeWhile fun x => y * w * 2 + x * 2 + 3 < length).flatMap fun x =>
    if x + 1 < w then [y * w + x, y * w + x + 1] else [y * w + x]

def painted (rgba : List UInt8) (start : Nat) (colour : UInt8 × UInt8 × UInt8) : List UInt8 :=
  (((rgba.set start colour.1).set (start + 1) colour.2.1).set (start + 2) colour.2.2).set
    (start + 3) 255

@[simp] theorem painted_length (rgba : List UInt8) (start : Nat)
    (colour : UInt8 × UInt8 × UInt8) : (painted rgba start colour).length = rgba.length := by
  simp only [painted, List.length_set]

theorem drawPixel_inside (rgba : List UInt8) (start : Nat) (colour : UInt8 × UInt8 × UInt8)
    (inside : start + 3 < rgba.length) :
    drawPixel rgba start colour = .ok (painted rgba start colour) := by
  simp only [drawPixel]
  rw [writeAt_inside _ _ _ (by omega)]
  simp only [bind, Except.bind]
  rw [writeAt_inside _ _ _ (by simp only [List.length_set]; omega)]
  dsimp only
  rw [writeAt_inside _ _ _ (by simp only [List.length_set]; omega)]
  dsimp only
  exact writeAt_inside _ _ _ (by simp only [List.length_set]; omega)

def alpha (rgba : List UInt8) (pixel : Nat) : Option UInt8 := rgba[4 * pixel + 3]?

theorem painted_alpha (rgba : List UInt8) (pixel other : Nat) (colour : UInt8 × UInt8 × UInt8)
    (inside : pixel * 4 + 3 < rgba.length) :
    alpha (painted rgba (pixel * 4) colour) other =
      if other = pixel then some 255 else alpha rgba other := by
  by_cases same : other = pixel
  · subst same
    rw [if_pos rfl, alpha, painted, Nat.mul_comm,
      List.getElem?_set_self (by simp only [List.length_set]; omega)]
  · rw [if_neg same, alpha, painted, List.getElem?_set_ne (by omega), List.getElem?_set_ne (by omega),
      List.getElem?_set_ne (by omega), List.getElem?_set_ne (by omega), alpha]

def pairPixels (w x pixel : Nat) : List Nat :=
  if x + 1 < w then [pixel, pixel + 1] else [pixel]

def paintedPair (w x pixel : Nat) (rgba : List UInt8) (first second : UInt8 × UInt8 × UInt8) :
    List UInt8 :=
  if x + 1 < w then painted (painted rgba (pixel * 4) first) ((pixel + 1) * 4) second
  else painted rgba (pixel * 4) first

@[simp] theorem paintedPair_length (w x pixel : Nat) (rgba : List UInt8)
    (first second : UInt8 × UInt8 × UInt8) :
    (paintedPair w x pixel rgba first second).length = rgba.length := by
  rw [paintedPair]
  split <;> simp only [painted_length]

theorem paintedPair_alpha (w x pixel : Nat) (rgba : List UInt8)
    (first second : UInt8 × UInt8 × UInt8) (inside : pixel * 4 + 3 < rgba.length)
    (both : x + 1 < w → (pixel + 1) * 4 + 3 < rgba.length) (other : Nat) :
    alpha (paintedPair w x pixel rgba first second) other =
      if other ∈ pairPixels w x pixel then some 255 else alpha rgba other := by
  by_cases pair : x + 1 < w
  · rw [paintedPair, pairPixels, if_pos pair, if_pos pair,
      painted_alpha _ _ _ _ (by rw [painted_length]; exact both pair),
      painted_alpha _ _ _ _ inside]
    by_cases left : other = pixel <;> by_cases right : other = pixel + 1 <;> simp [left, right]
  · rw [paintedPair, pairPixels, if_neg pair, if_neg pair, painted_alpha _ _ _ _ inside]
    by_cases left : other = pixel <;> simp [left]

theorem drawRow_round (uyvy : List UInt8) (w y x : Nat) (rest : List Nat) (rgba : List UInt8)
    (long : y * w * 2 + x * 2 + 3 < uyvy.length) (first : (y * w + x) * 4 + 3 < rgba.length)
    (both : x + 1 < w → (y * w + x + 1) * 4 + 3 < rgba.length) :
    ∃ left right, drawRow uyvy w y (x :: rest) rgba =
      drawRow uyvy w y rest (paintedPair w x (y * w + x) rgba left right) := by
  obtain ⟨u, readU⟩ := readAt_inside uyvy (y * w * 2 + x * 2) (by omega)
  obtain ⟨y0, readY0⟩ := readAt_inside uyvy (y * w * 2 + x * 2 + 1) (by omega)
  obtain ⟨v, readV⟩ := readAt_inside uyvy (y * w * 2 + x * 2 + 2) (by omega)
  obtain ⟨y1, readY1⟩ := readAt_inside uyvy (y * w * 2 + x * 2 + 3) long
  refine ⟨yuvToRgb y0 u v, yuvToRgb y1 u v, ?_⟩
  simp only [drawRow, if_neg (Nat.not_le.mpr long), readU, readY0, readV, readY1, bind,
    Except.bind, drawPixel_inside rgba _ _ first]
  rw [paintedPair]
  by_cases pair : x + 1 < w
  · have room := both pair
    rw [if_pos pair, if_pos pair, drawPixel_inside _ _ _ (by rw [painted_length]; omega),
      Nat.succ_mul (y * w + x) 4]
  · rw [if_neg pair, if_neg pair]

theorem drawnInRow_cons (length w y x : Nat) (rest : List Nat)
    (long : y * w * 2 + x * 2 + 3 < length) :
    drawnInRow length w y (x :: rest) =
      pairPixels w x (y * w + x) ++ drawnInRow length w y rest := by
  simp [drawnInRow, pairPixels, long]

theorem drawn_append (front back : List Nat) (pixel : Nat) (old : Option UInt8) :
    (if pixel ∈ back then some 255 else if pixel ∈ front then some 255 else old) =
      if pixel ∈ front ++ back then some (255 : UInt8) else old := by
  by_cases later : pixel ∈ back
  · rw [if_pos later, if_pos (List.mem_append.mpr (.inr later))]
  · simp only [if_neg later, List.mem_append, or_iff_left later]

theorem drawRow_alpha (uyvy : List UInt8) (w y : Nat) (columns : List Nat) (rgba : List UInt8)
    (inside : ∀ x ∈ columns, x < w) (room : (y + 1) * w * 4 ≤ rgba.length) :
    ∃ after, drawRow uyvy w y columns rgba = .ok after ∧ after.length = rgba.length ∧
      ∀ pixel, alpha after pixel =
        if pixel ∈ drawnInRow uyvy.length w y columns then some 255 else alpha rgba pixel := by
  induction columns generalizing rgba with
  | nil => exact ⟨rgba, rfl, rfl, fun _ => rfl⟩
  | cons x rest ih =>
      by_cases short : uyvy.length ≤ y * w * 2 + x * 2 + 3
      · have stopped : drawnInRow uyvy.length w y (x :: rest) = [] := by
          simp [drawnInRow, Nat.not_lt.mpr short]
        refine ⟨rgba, ?_, rfl, fun pixel => ?_⟩
        · rw [drawRow, if_pos short]
        · rw [stopped, if_neg List.not_mem_nil]
      · have column := inside x List.mem_cons_self
        have rows : (y + 1) * w = y * w + w := Nat.succ_mul y w
        have first : (y * w + x) * 4 + 3 < rgba.length := by omega
        have both : x + 1 < w → (y * w + x + 1) * 4 + 3 < rgba.length := fun _ => by omega
        obtain ⟨left, right, round⟩ :=
          drawRow_round uyvy w y x rest rgba (Nat.not_le.mp short) first both
        obtain ⟨after, ran, kept, alphas⟩ := ih (paintedPair w x (y * w + x) rgba left right)
          (fun other member => inside other (List.mem_cons_of_mem x member))
          (by rw [paintedPair_length]; exact room)
        rw [paintedPair_length] at kept
        refine ⟨after, round.trans ran, kept, fun pixel => ?_⟩
        rw [alphas, paintedPair_alpha w x _ rgba left right first both, drawn_append,
          drawnInRow_cons _ w y x rest (Nat.not_le.mp short)]

theorem drawRows_alpha (uyvy : List UInt8) (w : Nat) (rows : List Nat) (rgba : List UInt8)
    (room : ∀ y ∈ rows, (y + 1) * w * 4 ≤ rgba.length) :
    ∃ after, rows.foldlM (fun rgba y => drawRow uyvy w y (pairColumns w) rgba) rgba = .ok after ∧
      after.length = rgba.length ∧
      ∀ pixel, alpha after pixel =
        if pixel ∈ rows.flatMap fun y => drawnInRow uyvy.length w y (pairColumns w) then some 255
        else alpha rgba pixel := by
  induction rows generalizing rgba with
  | nil => exact ⟨rgba, rfl, rfl, fun _ => rfl⟩
  | cons y rest ih =>
      have columns : ∀ x ∈ pairColumns w, x < w := by
        intro x member
        obtain ⟨index, bound, rfl⟩ := List.mem_map.mp member
        have below := List.mem_range.mp bound
        omega
      obtain ⟨between, ran, kept, alphas⟩ :=
        drawRow_alpha uyvy w y (pairColumns w) rgba columns (room y List.mem_cons_self)
      obtain ⟨after, went, left, later⟩ := ih between fun other member =>
        kept ▸ room other (List.mem_cons_of_mem y member)
      refine ⟨after, ?_, left.trans kept, fun pixel => ?_⟩
      · rw [List.foldlM_cons, ran]
        exact went
      · rw [later, alphas, drawn_append, List.flatMap_cons]

/-- What comes out when the allocation succeeds: all bytes, and the drawn pixels opaque. -/
theorem uyvyToRgba_alpha (uyvy : List UInt8) (width height : UInt32)
    (fits : width.toNat * height.toNat * 4 ≤ isizeMax) :
    ∃ rgba, uyvyToRgba uyvy width height = .ok rgba ∧
      rgba.length = width.toNat * height.toNat * 4 ∧
      ∀ pixel, pixel < width.toNat * height.toNat → alpha rgba pixel =
        if pixel ∈ (List.range height.toNat).flatMap fun y =>
          drawnInRow uyvy.length width.toNat y (pairColumns width.toNat) then some 255
        else some 0 := by
  have small : width.toNat * height.toNat * 4 < 2 ^ 64 := by
    rw [isizeMax] at fits
    omega
  obtain ⟨rgba, drawn, kept, alphas⟩ := drawRows_alpha uyvy width.toNat (List.range height.toNat)
    (List.replicate (width.toNat * height.toNat * 4) 0) (fun y member => by
      have below : (y + 1) * width.toNat ≤ height.toNat * width.toNat :=
        Nat.mul_le_mul_right width.toNat (List.mem_range.mp member)
      rw [List.length_replicate, Nat.mul_comm width.toNat]
      omega)
  rw [List.length_replicate] at kept
  refine ⟨rgba, ?_, kept, fun pixel inside => ?_⟩
  · simp only [uyvyToRgba, mul_fits _ _ (by omega : width.toNat * height.toNat < 2 ^ 64),
      mul_fits _ _ small, filled_fits _ _ fits, bind, Except.bind]
    exact drawn
  · have room : 4 * pixel + 3 < width.toNat * height.toNat * 4 := by omega
    rw [alphas pixel, alpha, List.getElem?_replicate, if_pos room]

theorem last_drawn (length w h : Nat) (wide : 0 < w) (high : 0 < h)
    (last : w * h - 1 ∈ (List.range h).flatMap fun y => drawnInRow length w y (pairColumns w)) :
    w % 2 = 0 ∨ w * h * 2 + 2 ≤ length := by
  by_contra neither
  obtain ⟨odd, short⟩ := not_or.mp neither
  have some : 0 < w * h := Nat.mul_pos wide high
  obtain ⟨y, row, drawn⟩ := List.mem_flatMap.mp last
  obtain ⟨x, taken, pixel⟩ := List.mem_flatMap.mp drawn
  have reads := List.mem_takeWhile_imp taken
  obtain ⟨index, bound, rfl⟩ :=
    List.mem_map.mp ((List.takeWhile_sublist _).mem taken)
  have below : (y + 1) * w ≤ h * w := Nat.mul_le_mul_right w (List.mem_range.mp row)
  have column := List.mem_range.mp bound
  have rows : (y + 1) * w = y * w + w := Nat.succ_mul y w
  have area : w * h = h * w := Nat.mul_comm w h
  simp only [decide_eq_true_eq] at reads
  -- an odd width leaves the last column without a partner, and the pair before it is another one
  split at pixel
  · rcases List.mem_cons.mp pixel with left | right
    · omega
    · have same := List.mem_singleton.mp right
      omega
  · have same := List.mem_singleton.mp pixel
    omega

theorem pixel_drawn (length w h pixel : Nat) (wide : 0 < w) (complete : w * h * 2 ≤ length)
    (enough : w % 2 = 0 ∨ w * h * 2 + 2 ≤ length) (inside : pixel < w * h) :
    pixel ∈ (List.range h).flatMap fun y => drawnInRow length w y (pairColumns w) := by
  have row : pixel / w < h := Nat.div_lt_of_lt_mul inside
  have column : pixel % w < w := Nat.mod_lt pixel wide
  have place : pixel / w * w + pixel % w = pixel := Nat.div_add_mod' pixel w
  have unbroken : (pairColumns w).takeWhile
      (fun x => pixel / w * w * 2 + x * 2 + 3 < length) = pairColumns w := by
    apply List.takeWhile_eq_self_iff.mpr
    intro x member
    obtain ⟨index, bound, rfl⟩ := List.mem_map.mp member
    have below : (pixel / w + 1) * w ≤ h * w := Nat.mul_le_mul_right w row
    have rows : (pixel / w + 1) * w = pixel / w * w + w := Nat.succ_mul _ w
    have pairs := List.mem_range.mp bound
    have area : w * h = h * w := Nat.mul_comm w h
    simp only [decide_eq_true_eq]
    omega
  apply List.mem_flatMap.mpr
  refine ⟨pixel / w, List.mem_range.mpr row, ?_⟩
  rw [drawnInRow, unbroken]
  apply List.mem_flatMap.mpr
  refine ⟨2 * (pixel % w / 2), List.mem_map.mpr ⟨pixel % w / 2, List.mem_range.mpr (by omega), rfl⟩,
    ?_⟩
  split
  · have either : pixel = pixel / w * w + 2 * (pixel % w / 2) ∨
        pixel = pixel / w * w + 2 * (pixel % w / 2) + 1 := by omega
    simpa using either
  · have only : pixel = pixel / w * w + 2 * (pixel % w / 2) := by omega
    simpa using only

theorem all_drawn (length w h : Nat) (wide : 0 < w) (high : 0 < h)
    (complete : w * h * 2 ≤ length) :
    (∀ pixel < w * h, pixel ∈ (List.range h).flatMap fun y =>
      drawnInRow length w y (pairColumns w)) ↔ w % 2 = 0 ∨ w * h * 2 + 2 ≤ length := by
  constructor
  · intro all
    have some : 0 < w * h := Nat.mul_pos wide high
    exact last_drawn length w h wide high (all (w * h - 1) (Nat.sub_lt some Nat.one_pos))
  · intro enough pixel inside
    exact pixel_drawn length w h pixel wide complete enough inside

/-- Every pixel of a complete frame is opaque exactly if the frame is allocated and the rows
are even or the buffer goes on behind the frame. -/
theorem every_pixel_drawn (uyvy : List UInt8) (width height : UInt32) (wide : 0 < width.toNat)
    (high : 0 < height.toNat) (fits : width.toNat * height.toNat * 4 < 2 ^ 64)
    (complete : width.toNat * height.toNat * 2 ≤ uyvy.length) :
    (∃ rgba, uyvyToRgba uyvy width height = .ok rgba ∧
      rgba.length = width.toNat * height.toNat * 4 ∧
      ∀ pixel < width.toNat * height.toNat, rgba[4 * pixel + 3]? = some 255) ↔
    width.toNat * height.toNat * 4 ≤ isizeMax ∧
      (width.toNat % 2 = 0 ∨ width.toNat * height.toNat * 2 + 2 ≤ uyvy.length) := by
  have covered := all_drawn uyvy.length width.toNat height.toNat wide high complete
  constructor
  · rintro ⟨rgba, returned, -, full⟩
    have allocated : width.toNat * height.toNat * 4 ≤ isizeMax := by
      by_contra large
      simp only [uyvyToRgba, mul_fits _ _ (by omega : width.toNat * height.toNat < 2 ^ 64),
        mul_fits _ _ fits, filled, if_neg large, bind, Except.bind] at returned
      cases returned
    obtain ⟨drawn, same, -, alphas⟩ := uyvyToRgba_alpha uyvy width height allocated
    rw [returned] at same
    cases same
    refine ⟨allocated, covered.mp fun pixel inside => ?_⟩
    by_contra missed
    have clear := alphas pixel inside
    rw [if_neg missed, alpha, full pixel inside] at clear
    cases clear
  · rintro ⟨allocated, enough⟩
    obtain ⟨rgba, returned, sized, alphas⟩ := uyvyToRgba_alpha uyvy width height allocated
    refine ⟨rgba, returned, sized, fun pixel inside => ?_⟩
    have drawn := alphas pixel inside
    rw [if_pos (covered.mpr enough pixel inside)] at drawn
    exact drawn

theorem every_pixel_drawn_one :
    ∃ rgba, uyvyToRgba [128, 16, 128, 16] 1 1 = .ok rgba ∧ rgba.length = 4 ∧
      ∀ pixel < 1, rgba[4 * pixel + 3]? = some 255 :=
  (every_pixel_drawn [128, 16, 128, 16] 1 1 (by decide) (by decide) (by decide) (by decide)).mpr
    ⟨by decide, by decide⟩

/-- One pixel of two bytes is not drawn. -/
theorem odd_pixel_missed :
    uyvyToRgba [128, 16] 1 1 = .ok [0, 0, 0, 0] ∧
      ¬ ∃ rgba, uyvyToRgba [128, 16] 1 1 = .ok rgba ∧ rgba.length = 4 ∧
        ∀ pixel < 1, rgba[4 * pixel + 3]? = some 255 := by
  have blank : uyvyToRgba [128, 16] 1 1 = .ok [0, 0, 0, 0] := by decide +kernel
  refine ⟨blank, ?_⟩
  rintro ⟨rgba, returned, -, full⟩
  rw [blank] at returned
  cases returned
  exact absurd (full 0 Nat.one_pos) (by decide)

end OpenMediaTransport.Color
