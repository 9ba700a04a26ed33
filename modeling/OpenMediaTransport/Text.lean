import Mathlib.Algebra.Ring.Nat
import Mathlib.Data.List.DropRight

/-!
Strings that are indexed by bytes. A text is its list of characters; positions
count the bytes of their UTF-8 form. Taking a slice at a position that is not
between two characters, or past the end, is a panic and not a value. Searches
answer with byte positions, and every position they answer with is safe to
slice at.
-/

namespace OpenMediaTransport.Text

/-- Aborting a thread by slicing where no character begins. -/
inductive Panic where
  | notCharBoundary (index : Nat)
  deriving DecidableEq, Repr

def byteLength (text : List Char) : Nat := (text.map Char.utf8Size).sum

/-- Cut at a byte position, if a character begins or the text ends there. -/
def splitAt? : List Char → Nat → Option (List Char × List Char)
  | text, 0 => some ([], text)
  | [], _ + 1 => none
  | char :: rest, index + 1 =>
      if index + 1 < char.utf8Size then none
      else (splitAt? rest (index + 1 - char.utf8Size)).map fun parts => (char :: parts.1, parts.2)

/-- `&text[..index]`. -/
def sliceTo (text : List Char) (index : Nat) : Except Panic (List Char) :=
  match splitAt? text index with
  | some parts => .ok parts.1
  | none => .error (.notCharBoundary index)

/-- `&text[start..]`. -/
def sliceFrom (text : List Char) (start : Nat) : Except Panic (List Char) :=
  match splitAt? text start with
  | some parts => .ok parts.2
  | none => .error (.notCharBoundary start)

/-- `&text[start..stop]`. -/
def slice (text : List Char) (start stop : Nat) : Except Panic (List Char) :=
  match splitAt? text stop with
  | none => .error (.notCharBoundary stop)
  | some parts =>
      match splitAt? parts.1 start with
      | none => .error (.notCharBoundary start)
      | some inner => .ok inner.2

def find? (text : List Char) (needle : Char) : Option Nat :=
  match text with
  | [] => none
  | char :: rest =>
      if char = needle then some 0 else (find? rest needle).map (char.utf8Size + ·)

def rfind? (text : List Char) (needle : Char) : Option Nat :=
  match text with
  | [] => none
  | char :: rest =>
      match rfind? rest needle with
      | some index => some (char.utf8Size + index)
      | none => if char = needle then some 0 else none

def replaceChar (text : List Char) (old : Char) (new : List Char) : List Char :=
  text.flatMap fun char => if char = old then new else [char]

def findText? (text needle : List Char) : Option Nat :=
  match text with
  | [] => if needle.isEmpty then some 0 else none
  | char :: rest =>
      if needle.isPrefixOf (char :: rest) then some 0
      else (findText? rest needle).map (char.utf8Size + ·)

/-- The text before and after the place that `find` answers with. -/
def splitText (text needle : List Char) : Option (List Char × List Char) :=
  if needle.isPrefixOf text then some ([], text.drop needle.length)
  else match text with
    | [] => none
    | char :: rest => (splitText rest needle).map fun parts => (char :: parts.1, parts.2)

/-- The scan of `replace`: past what is left of a match, then on to the next one. -/
def replaceFrom (old new : List Char) : Nat → List Char → List Char
  | _, [] => []
  | left + 1, _ :: rest => replaceFrom old new left rest
  | 0, char :: rest =>
      if old.isPrefixOf (char :: rest) then new ++ replaceFrom old new (old.length - 1) rest
      else char :: replaceFrom old new 0 rest

/-- `replace` of one text, which is not empty, by another. -/
def replaceText (text old new : List Char) : List Char := replaceFrom old new 0 text

def splitOnce (text : List Char) (separator : Char) : Option (List Char × List Char) :=
  match text with
  | [] => none
  | char :: rest =>
      if char = separator then some ([], rest)
      else (splitOnce rest separator).map fun parts => (char :: parts.1, parts.2)

def rsplitOnce (text : List Char) (separator : Char) : Option (List Char × List Char) :=
  match text with
  | [] => none
  | char :: rest =>
      match rsplitOnce rest separator with
      | some parts => some (char :: parts.1, parts.2)
      | none => if char = separator then some ([], rest) else none

/-- The Unicode property White_Space. -/
def isWhitespace (char : Char) : Bool :=
  let code := char.toNat
  (9 ≤ code && code ≤ 13) || code == 0x20 || code == 0x85 || code == 0xA0 || code == 0x1680 ||
    (0x2000 ≤ code && code ≤ 0x200A) || code == 0x2028 || code == 0x2029 || code == 0x202F ||
    code == 0x205F || code == 0x3000

def trimStartMatches (drop : Char → Bool) (text : List Char) : List Char := text.dropWhile drop

def trimEndMatches (drop : Char → Bool) (text : List Char) : List Char := text.rdropWhile drop

def trim (text : List Char) : List Char :=
  trimEndMatches isWhitespace (trimStartMatches isWhitespace text)

def asciiLower (char : Char) : Char :=
  if 'A' ≤ char ∧ char ≤ 'Z' then Char.ofNat (char.toNat + 32) else char

def eqIgnoreAsciiCase (left right : List Char) : Bool :=
  left.map asciiLower == right.map asciiLower

def digitsValue (text : List Char) : Option Nat :=
  text.foldl (fun value char =>
    match value with
    | none => none
    | some value => if char.isDigit then some (value * 10 + (char.toNat - 48)) else none) (some 0)

/-- `str::parse` of an unsigned sixteen-bit number: an optional plus sign, then digits. -/
def parseU16 (text : List Char) : Option UInt16 :=
  let digits := if text.head? = some '+' then text.tail else text
  if digits.isEmpty then none
  else match digitsValue digits with
    | none => none
    | some value => if value < 65536 then some (.ofNat value) else none

def decimal (value : Nat) : List Char := Nat.toDigits 10 value

@[simp] theorem byteLength_nil : byteLength [] = 0 := rfl

@[simp] theorem byteLength_cons (char : Char) (text : List Char) :
    byteLength (char :: text) = char.utf8Size + byteLength text := rfl

theorem byteLength_append (front back : List Char) :
    byteLength (front ++ back) = byteLength front + byteLength back := by
  unfold byteLength
  rw [List.map_append, List.sum_append]

theorem byteLength_positive (text : List Char) (some : text ≠ []) : 0 < byteLength text := by
  cases text with
  | nil => exact absurd rfl some
  | cons char rest => exact Nat.add_pos_left char.utf8Size_pos _

/-! Where a text can be cut. -/

def IsBoundary (text : List Char) (index : Nat) : Prop :=
  ∃ front back, text = front ++ back ∧ byteLength front = index

theorem splitAt_front (front back : List Char) :
    splitAt? (front ++ back) (byteLength front) = some (front, back) := by
  induction front with
  | nil =>
      cases back <;> rfl
  | cons char rest ih =>
      have positive := char.utf8Size_pos
      obtain ⟨index, shape⟩ : ∃ index, byteLength (char :: rest) = index + 1 :=
        Nat.exists_eq_succ_of_ne_zero (by rw [byteLength_cons]; omega)
      have inside : ¬ index + 1 < char.utf8Size := by
        rw [← shape, byteLength_cons]
        omega
      have left : index + 1 - char.utf8Size = byteLength rest := by
        rw [← shape, byteLength_cons, Nat.add_sub_cancel_left]
      rw [shape, List.cons_append, splitAt?, if_neg inside, left, ih]
      rfl

theorem splitAt_parts (text front back : List Char) (index : Nat)
    (cut : splitAt? text index = some (front, back)) :
    text = front ++ back ∧ byteLength front = index := by
  induction text generalizing front index with
  | nil =>
      cases index with
      | zero => cases cut; exact ⟨rfl, rfl⟩
      | succ index => cases cut
  | cons char rest ih =>
      cases index with
      | zero => cases cut; exact ⟨rfl, rfl⟩
      | succ index =>
          rw [splitAt?] at cut
          split at cut
          · cases cut
          rename_i inside
          obtain ⟨parts, tail, same⟩ := Option.map_eq_some_iff.mp cut
          cases same
          obtain ⟨whole, size⟩ := ih parts.1 _ tail
          refine ⟨by rw [whole]; rfl, ?_⟩
          rw [byteLength_cons, size]
          omega

theorem sliceTo_boundary (text : List Char) (index : Nat) :
    (∃ front, sliceTo text index = .ok front) ↔ IsBoundary text index := by
  unfold sliceTo
  constructor
  · rintro ⟨front, taken⟩
    split at taken
    · rename_i parts cut
      exact ⟨parts.1, parts.2, splitAt_parts text parts.1 parts.2 index cut⟩
    · cases taken
  · rintro ⟨front, back, rfl, rfl⟩
    rw [splitAt_front]
    exact ⟨front, rfl⟩

theorem sliceTo_front (front back : List Char) :
    sliceTo (front ++ back) (byteLength front) = .ok front := by
  rw [sliceTo, splitAt_front]

theorem sliceFrom_back (front back : List Char) :
    sliceFrom (front ++ back) (byteLength front) = .ok back := by
  rw [sliceFrom, splitAt_front]

theorem slice_middle (front middle back : List Char) :
    slice (front ++ (middle ++ back)) (byteLength front) (byteLength (front ++ middle)) =
      .ok middle := by
  rw [slice, ← List.append_assoc, splitAt_front]
  dsimp only
  rw [splitAt_front]

/-! Searches answer with boundaries. -/

theorem find_split (text : List Char) (needle : Char) (index : Nat)
    (found : find? text needle = some index) :
    ∃ front back, text = front ++ needle :: back ∧ needle ∉ front ∧ byteLength front = index := by
  induction text generalizing index with
  | nil => cases found
  | cons char rest ih =>
      rw [find?] at found
      by_cases here : char = needle
      · rw [if_pos here] at found
        cases found
        exact ⟨[], rest, by rw [here]; rfl, List.not_mem_nil, rfl⟩
      · rw [if_neg here] at found
        obtain ⟨later, tail, rfl⟩ := Option.map_eq_some_iff.mp found
        obtain ⟨front, back, rfl, first, size⟩ := ih later tail
        exact ⟨char :: front, back, rfl, List.not_mem_cons_of_ne_of_not_mem (Ne.symm here) first,
          by rw [byteLength_cons, size]⟩

theorem find_front (front back : List Char) (needle : Char) (first : needle ∉ front) :
    find? (front ++ needle :: back) needle = some (byteLength front) := by
  induction front with
  | nil => rw [List.nil_append, find?, if_pos rfl, byteLength_nil]
  | cons char rest ih =>
      obtain ⟨apart, later⟩ := List.ne_and_not_mem_of_not_mem_cons first
      rw [List.cons_append, find?, if_neg (Ne.symm apart), ih later]
      rfl

theorem rfind_none (text : List Char) (needle : Char) :
    rfind? text needle = none ↔ needle ∉ text := by
  induction text with
  | nil => simp [rfind?]
  | cons char rest ih =>
      rw [rfind?, List.mem_cons, not_or, ← ih]
      cases rfind? rest needle with
      | some later => simp
      | none => simp [eq_comm]

theorem rfind_split (text : List Char) (needle : Char) (index : Nat)
    (found : rfind? text needle = some index) :
    ∃ front back, text = front ++ needle :: back ∧ needle ∉ back ∧ byteLength front = index := by
  induction text generalizing index with
  | nil => cases found
  | cons char rest ih =>
      rw [rfind?] at found
      cases tail : rfind? rest needle with
      | some later =>
          rw [tail] at found
          cases found
          obtain ⟨front, back, rfl, last, size⟩ := ih later tail
          exact ⟨char :: front, back, rfl, last, by rw [byteLength_cons, size]⟩
      | none =>
          rw [tail] at found
          dsimp only at found
          split at found
          · rename_i here
            cases found
            exact ⟨[], rest, by rw [here]; rfl, (rfind_none rest needle).mp tail, rfl⟩
          · cases found

theorem rfind_back (front back : List Char) (needle : Char) (last : needle ∉ back) :
    rfind? (front ++ needle :: back) needle = some (byteLength front) := by
  induction front with
  | nil => rw [List.nil_append, rfind?, (rfind_none back needle).mpr last, if_pos rfl, byteLength_nil]
  | cons char rest ih =>
      rw [List.cons_append, rfind?, ih]
      rfl

theorem findText_boundary (text needle : List Char) (index : Nat)
    (found : findText? text needle = some index) : IsBoundary text index := by
  induction text generalizing index with
  | nil =>
      rw [findText?] at found
      split at found
      · cases found
        exact ⟨[], [], rfl, rfl⟩
      · cases found
  | cons char rest ih =>
      rw [findText?] at found
      split at found
      · cases found
        exact ⟨[], char :: rest, rfl, rfl⟩
      · obtain ⟨later, tail, rfl⟩ := Option.map_eq_some_iff.mp found
        obtain ⟨front, back, rfl, size⟩ := ih later tail
        exact ⟨char :: front, back, rfl, by rw [byteLength_cons, size]⟩

theorem isPrefixOf_append (first rest : List Char) : first.isPrefixOf (first ++ rest) = true :=
  List.isPrefixOf_iff_prefix.mpr (List.prefix_append first rest)

theorem splitText_parts (text needle front back : List Char)
    (found : splitText text needle = some (front, back)) : text = front ++ (needle ++ back) := by
  induction text generalizing front with
  | nil =>
      rw [splitText] at found
      split at found
      · rename_i here
        cases found
        rw [List.prefix_nil.mp (List.isPrefixOf_iff_prefix.mp here)]
        rfl
      · cases found
  | cons char rest ih =>
      rw [splitText] at found
      split at found
      · rename_i here
        obtain ⟨tail, whole⟩ := List.isPrefixOf_iff_prefix.mp here
        cases found
        rw [← whole, List.drop_left]
        rfl
      · obtain ⟨parts, tail, same⟩ := Option.map_eq_some_iff.mp found
        cases same
        rw [ih parts.1 tail]
        rfl

theorem splitText_here (needle back : List Char) :
    splitText (needle ++ back) needle = some ([], back) := by
  rw [splitText.eq_def, if_pos (isPrefixOf_append needle back), List.drop_left]

theorem splitText_miss (char : Char) (rest needle : List Char)
    (miss : needle.isPrefixOf (char :: rest) = false) :
    splitText (char :: rest) needle =
      (splitText rest needle).map fun parts => (char :: parts.1, parts.2) := by
  rw [splitText, miss, if_neg Bool.false_ne_true]

theorem splitText_skip (front rest more : List Char) (first : Char) (apart : first ∉ front) :
    splitText (front ++ rest) (first :: more) =
      (splitText rest (first :: more)).map fun parts => (front ++ parts.1, parts.2) := by
  induction front with
  | nil => simp
  | cons char front ih =>
      obtain ⟨here, later⟩ := List.ne_and_not_mem_of_not_mem_cons apart
      have miss : (first :: more).isPrefixOf (char :: (front ++ rest)) = false := by
        simp [List.isPrefixOf, here]
      rw [List.cons_append, splitText_miss _ _ _ miss, ih later]
      cases splitText rest (first :: more) <;> rfl

theorem splitText_none (text more : List Char) (first : Char) (apart : first ∉ text) :
    splitText text (first :: more) = none := by
  have skipped := splitText_skip text [] more first apart
  rw [List.append_nil] at skipped
  rw [skipped]
  rfl

theorem splitText_front (front back more : List Char) (first : Char) (apart : first ∉ front) :
    splitText (front ++ (first :: more ++ back)) (first :: more) = some (front, back) := by
  rw [splitText_skip front _ more first apart, splitText_here]
  simp

theorem splitOnce_front (front back : List Char) (separator : Char) (apart : separator ∉ front) :
    splitOnce (front ++ separator :: back) separator = some (front, back) := by
  induction front with
  | nil => rw [List.nil_append, splitOnce, if_pos rfl]
  | cons char front ih =>
      obtain ⟨here, later⟩ := List.ne_and_not_mem_of_not_mem_cons apart
      rw [List.cons_append, splitOnce, if_neg (Ne.symm here), ih later]
      rfl

theorem splitOnce_parts (text front back : List Char) (separator : Char)
    (found : splitOnce text separator = some (front, back)) :
    text = front ++ separator :: back ∧ separator ∉ front := by
  induction text generalizing front with
  | nil => cases found
  | cons char rest ih =>
      rw [splitOnce] at found
      by_cases here : char = separator
      · rw [if_pos here] at found
        cases found
        exact ⟨by rw [here]; rfl, List.not_mem_nil⟩
      · rw [if_neg here] at found
        obtain ⟨parts, tail, same⟩ := Option.map_eq_some_iff.mp found
        cases same
        obtain ⟨whole, first⟩ := ih parts.1 tail
        exact ⟨by rw [whole]; rfl, List.not_mem_cons_of_ne_of_not_mem (Ne.symm here) first⟩

theorem rsplitOnce_none (text : List Char) (separator : Char) :
    rsplitOnce text separator = none ↔ separator ∉ text := by
  induction text with
  | nil => exact iff_of_true rfl List.not_mem_nil
  | cons char rest ih =>
      rw [rsplitOnce, List.mem_cons, not_or, ← ih]
      cases rsplitOnce rest separator with
      | some parts => simp
      | none => simp [eq_comm]

theorem rsplitOnce_back (front back : List Char) (separator : Char) (last : separator ∉ back) :
    rsplitOnce (front ++ separator :: back) separator = some (front, back) := by
  induction front with
  | nil =>
      rw [List.nil_append, rsplitOnce, (rsplitOnce_none back separator).mpr last]
      exact if_pos rfl
  | cons char rest ih => rw [List.cons_append, rsplitOnce, ih]

theorem rsplitOnce_parts (text front back : List Char) (separator : Char)
    (found : rsplitOnce text separator = some (front, back)) :
    text = front ++ separator :: back ∧ separator ∉ back := by
  induction text generalizing front with
  | nil => cases found
  | cons char rest ih =>
      unfold rsplitOnce at found
      cases later : rsplitOnce rest separator with
      | some parts =>
          rw [later] at found
          cases found
          obtain ⟨whole, last⟩ := ih parts.1 later
          exact ⟨by rw [List.cons_append, ← whole], last⟩
      | none =>
          rw [later] at found
          by_cases here : char = separator
          · rw [if_pos here] at found
            cases found
            exact ⟨by rw [here]; rfl, (rsplitOnce_none back separator).mp later⟩
          · rw [if_neg here] at found
            cases found

/-! Replacing. -/

/-- Replacements made one after the other. -/
def replaceChars (table : List (Char × List Char)) (text : List Char) : List Char :=
  table.foldl (fun text entry => replaceChar text entry.1 entry.2) text

def tabled : List (Char × List Char) → Char → List Char
  | [], char => [char]
  | entry :: rest, char => if char = entry.1 then entry.2 else tabled rest char

theorem tabled_absent (table : List (Char × List Char)) (char : Char)
    (absent : char ∉ table.map Prod.fst) : tabled table char = [char] := by
  induction table with
  | nil => rfl
  | cons entry rest ih =>
      obtain ⟨apart, later⟩ := List.ne_and_not_mem_of_not_mem_cons absent
      rw [tabled, if_neg apart, ih later]

/-- No replacement touches what an earlier one wrote, so each character is replaced once. -/
theorem replaceChars_flatMap (table : List (Char × List Char)) (text : List Char)
    (apart : table.Pairwise fun earlier later => later.1 ∉ earlier.2) :
    replaceChars table text = text.flatMap (tabled table) := by
  induction table generalizing text with
  | nil => exact (List.flatMap_singleton' text).symm
  | cons entry rest ih =>
      obtain ⟨first, later⟩ := List.pairwise_cons.mp apart
      change replaceChars rest (replaceChar text entry.1 entry.2) = _
      rw [ih _ later, replaceChar, List.flatMap_assoc]
      apply List.flatMap_congr
      intro char _
      by_cases here : char = entry.1
      · have kept : entry.2.flatMap (tabled rest) = entry.2 := by
          refine (List.flatMap_congr fun other member => ?_).trans (List.flatMap_singleton' entry.2)
          apply tabled_absent
          intro listed
          obtain ⟨further, among, rfl⟩ := List.mem_map.mp listed
          exact first further among member
        rw [tabled, if_pos here, if_pos here, kept]
      · rw [tabled, if_neg here, if_neg here, List.flatMap_singleton]

theorem replaceText_skip (first char : Char) (more new rest : List Char) (apart : first ≠ char) :
    replaceText (char :: rest) (first :: more) new =
      char :: replaceText rest (first :: more) new := by
  have miss : (first :: more).isPrefixOf (char :: rest) = false := by simp [List.isPrefixOf, apart]
  rw [replaceText, replaceFrom, miss, if_neg Bool.false_ne_true]
  rfl

theorem replaceFrom_drop (old new front rest : List Char) :
    replaceFrom old new front.length (front ++ rest) = replaceText rest old new := by
  induction front with
  | nil => rfl
  | cons char front ih => exact ih

theorem replaceText_here (first : Char) (more new rest : List Char) :
    replaceText (first :: more ++ rest) (first :: more) new =
      new ++ replaceText rest (first :: more) new := by
  have here := isPrefixOf_append (first :: more) rest
  rw [List.cons_append] at here ⊢
  rw [replaceText, replaceFrom, if_pos here, List.length_cons, Nat.add_sub_cancel, replaceFrom_drop]

/-- A text made of pieces is replaced piece by piece where no piece leans on the next. -/
theorem replaceText_flatMap (old new text : List Char) (before after : Char → List Char)
    (piece : ∀ char rest, replaceText (before char ++ rest) old new =
      after char ++ replaceText rest old new) :
    replaceText (text.flatMap before) old new = text.flatMap after := by
  induction text with
  | nil => rfl
  | cons char rest ih => rw [List.flatMap_cons, List.flatMap_cons, piece, ih]

/-- Two cuts of one text are nested. -/
theorem cuts_nested (front back first rest : List Char) (same : front ++ back = first ++ rest)
    (shorter : byteLength front < byteLength first) :
    ∃ char middle, first = front ++ char :: middle ∧ back = char :: middle ++ rest := by
  rcases List.append_eq_append_iff.mp same with ⟨middle, whole, tail⟩ | ⟨middle, whole, _⟩
  · cases middle with
    | nil =>
        rw [List.append_nil] at whole
        rw [whole] at shorter
        exact absurd shorter (Nat.lt_irrefl _)
    | cons char middle => exact ⟨char, middle, whole, tail⟩
  · rw [whole, byteLength_append] at shorter
    omega

/-! Texts without white space at either end. -/

structure Trimmed (text : List Char) : Prop where
  head : ∀ char rest, text = char :: rest → isWhitespace char = false
  last : ∀ front char, text = front ++ [char] → isWhitespace char = false

theorem trimStart_head (text rest : List Char) (char : Char)
    (left : trimStartMatches isWhitespace text = char :: rest) : isWhitespace char = false := by
  have kept := List.head?_dropWhile_not isWhitespace text
  rw [trimStartMatches] at left
  rw [left] at kept
  exact kept

theorem trim_trimmed (text : List Char) : Trimmed (trim text) where
  head := by
    intro char rest left
    obtain ⟨tail, whole⟩ := List.rdropWhile_prefix isWhitespace (trimStartMatches isWhitespace text)
    change trim text ++ tail = _ at whole
    rw [left, List.cons_append] at whole
    exact trimStart_head text (rest ++ tail) char whole.symm
  last := by
    intro front char left
    have kept := List.rdropWhile_last_not isWhitespace (trimStartMatches isWhitespace text)
    change ∀ some : trim text ≠ [], ¬ isWhitespace ((trim text).getLast some) = true at kept
    rw [left] at kept
    have last := kept (by simp)
    rw [List.getLast_append_singleton] at last
    exact Bool.not_eq_true _ ▸ last

theorem trim_of_trimmed (text : List Char) (trimmed : Trimmed text) : trim text = text := by
  have start : trimStartMatches isWhitespace text = text := by
    cases text with
    | nil => rfl
    | cons char rest =>
        exact List.dropWhile_cons_of_neg (by rw [trimmed.head char rest rfl]; exact Bool.false_ne_true)
  rw [trim, start, trimEndMatches, List.rdropWhile_eq_self_iff]
  intro some white
  rw [trimmed.last _ _ (List.dropLast_append_getLast some).symm] at white
  exact Bool.false_ne_true white

theorem trim_trim (text : List Char) : trim (trim text) = trim text :=
  trim_of_trimmed _ (trim_trimmed text)

theorem trim_subset (text : List Char) (char : Char) (member : char ∈ trim text) : char ∈ text :=
  (List.dropWhile_sublist _).subset ((List.rdropWhile_prefix _ _).subset member)

theorem byteLength_trim (text : List Char) : byteLength (trim text) ≤ byteLength text := by
  obtain ⟨tail, back⟩ := List.rdropWhile_prefix isWhitespace (trimStartMatches isWhitespace text)
  change trim text ++ tail = text.dropWhile isWhitespace at back
  have front := congrArg byteLength (List.takeWhile_append_dropWhile (p := isWhitespace) (l := text))
  rw [← back, byteLength_append, byteLength_append] at front
  omega

theorem trim_eq_nil (text : List Char) :
    trim text = [] ↔ ∀ char ∈ text, isWhitespace char = true := by
  rw [trim, trimEndMatches, List.rdropWhile_eq_nil_iff, trimStartMatches]
  constructor
  · intro white char member
    rw [← List.takeWhile_append_dropWhile (p := isWhitespace) (l := text)] at member
    rcases List.mem_append.mp member with front | back
    · exact List.mem_takeWhile_imp front
    · exact white char back
  · intro white char member
    exact white char ((List.dropWhile_sublist _).subset member)

theorem trim_parts (text : List Char) :
    ∃ lead trail, text = lead ++ (trim text ++ trail) ∧
      (∀ char ∈ lead, isWhitespace char = true) ∧ ∀ char ∈ trail, isWhitespace char = true := by
  refine ⟨text.takeWhile isWhitespace, (text.dropWhile isWhitespace).rtakeWhile isWhitespace, ?_,
    fun char member => List.mem_takeWhile_imp member, fun char member => List.mem_rtakeWhile_imp member⟩
  have back : trim text ++ (text.dropWhile isWhitespace).rtakeWhile isWhitespace =
      text.dropWhile isWhitespace :=
    List.rdropWhile_append_rtakeWhile
  rw [back, List.takeWhile_append_dropWhile]

theorem rdropWhile_white (front back : List Char) (white : ∀ char ∈ back, isWhitespace char = true) :
    (front ++ back).rdropWhile isWhitespace = front.rdropWhile isWhitespace := by
  rw [List.rdropWhile, List.reverse_append, List.dropWhile_append_of_pos, ← List.rdropWhile]
  simpa using white

theorem trim_surrounded (lead middle trail : List Char) (trimmed : Trimmed middle)
    (before : ∀ char ∈ lead, isWhitespace char = true)
    (behind : ∀ char ∈ trail, isWhitespace char = true) : trim (lead ++ (middle ++ trail)) = middle := by
  have bare := trim_of_trimmed middle trimmed
  cases middle with
  | nil =>
      refine (trim_eq_nil _).mpr fun char member => ?_
      rcases List.mem_append.mp member with front | back
      · exact before char front
      · exact behind char back
  | cons first rest =>
      have stays : ¬ isWhitespace first = true := by simp [trimmed.head first rest rfl]
      rw [trim, trimStartMatches, List.dropWhile_cons_of_neg stays] at bare
      rw [trim, trimStartMatches, List.dropWhile_append_of_pos before, List.cons_append,
        List.dropWhile_cons_of_neg stays, ← List.cons_append, trimEndMatches,
        rdropWhile_white _ _ behind]
      exact bare

theorem trim_front (char : Char) (rest : List Char) (black : isWhitespace char = false) :
    trim (char :: rest) <+: char :: rest ∧ trim (char :: rest) ≠ [] := by
  constructor
  · have start : trimStartMatches isWhitespace (char :: rest) = char :: rest :=
      List.dropWhile_cons_of_neg (by rw [black]; exact Bool.false_ne_true)
    rw [trim, start]
    exact List.rdropWhile_prefix _ _
  · intro empty
    rw [(trim_eq_nil _).mp empty char List.mem_cons_self] at black
    cases black

theorem trim_append_white (text : List Char) (char : Char) (trimmed : Trimmed text)
    (some : text ≠ []) (white : isWhitespace char = true) : trim (text ++ [char]) = text := by
  cases text with
  | nil => exact absurd rfl some
  | cons first rest =>
      have start : trimStartMatches isWhitespace (first :: rest ++ [char]) = first :: rest ++ [char] :=
        List.dropWhile_cons_of_neg (by rw [trimmed.head first rest rfl]; exact Bool.false_ne_true)
      have whole := trim_of_trimmed _ trimmed
      have bare : trimStartMatches isWhitespace (first :: rest) = first :: rest :=
        List.dropWhile_cons_of_neg (by rw [trimmed.head first rest rfl]; exact Bool.false_ne_true)
      rw [trim, bare] at whole
      rw [trim, start, trimEndMatches, List.rdropWhile_concat_pos _ _ _ white]
      exact whole

/-- Trimming passes through a rewriting that keeps white space and turns nothing else into it. -/
theorem dropWhile_flatMap (drop : Char → Bool) (piece : Char → List Char)
    (kept : ∀ char, drop char = true → piece char = [char])
    (black : ∀ char, drop char = false → piece char ≠ [] ∧ ∀ other ∈ piece char, drop other = false)
    (text : List Char) :
    (text.flatMap piece).dropWhile drop = (text.dropWhile drop).flatMap piece := by
  induction text with
  | nil => rfl
  | cons char rest ih =>
      cases white : drop char with
      | true =>
          rw [List.flatMap_cons, kept char white, List.singleton_append,
            List.dropWhile_cons_of_pos white, List.dropWhile_cons_of_pos white, ih]
      | false =>
          obtain ⟨some, clear⟩ := black char white
          obtain ⟨first, more, shape⟩ := List.exists_cons_of_ne_nil some
          have stays : ¬ drop first = true := by
            rw [clear first (by rw [shape]; exact List.mem_cons_self)]
            exact Bool.false_ne_true
          rw [List.dropWhile_cons_of_neg (by rw [white]; exact Bool.false_ne_true),
            List.flatMap_cons, shape, List.cons_append, List.dropWhile_cons_of_neg stays]

theorem trim_flatMap (piece : Char → List Char)
    (kept : ∀ char, isWhitespace char = true → piece char = [char])
    (black : ∀ char, isWhitespace char = false →
      piece char ≠ [] ∧ ∀ other ∈ piece char, isWhitespace other = false)
    (text : List Char) : trim (text.flatMap piece) = (trim text).flatMap piece := by
  have start := dropWhile_flatMap isWhitespace piece kept black text
  have back := dropWhile_flatMap isWhitespace (List.reverse ∘ piece)
    (fun char white => by rw [Function.comp, kept char white]; rfl)
    (fun char clear => ⟨by simpa using (black char clear).1, by simpa using (black char clear).2⟩)
    (text.dropWhile isWhitespace).reverse
  unfold trim trimEndMatches trimStartMatches List.rdropWhile
  rw [start, List.reverse_flatMap, back, List.reverse_flatMap]
  congr 1
  funext char
  exact List.reverse_reverse _

/-! Lowering letters keeps every position. -/

theorem utf8Size_low (char : Char) (low : char.toNat < 128) : char.utf8Size = 1 := by
  rcases char with ⟨val, valid⟩
  have bound : val ≤ 0x7F := by
    rw [UInt32.le_iff_toNat_le]
    exact Nat.le_of_lt_succ low
  exact if_pos bound

theorem ascii_all (holds : Char → Bool) (checked : ∀ code : Fin 128, holds (Char.ofNat code) = true)
    (char : Char) (low : char.toNat < 128) : holds char = true := by
  have hit := checked ⟨char.toNat, low⟩
  rw [Char.ofNat_toNat] at hit
  exact hit

theorem asciiLower_size (char : Char) : (asciiLower char).utf8Size = char.utf8Size := by
  unfold asciiLower
  by_cases upper : 'A' ≤ char ∧ char ≤ 'Z'
  · rw [if_pos upper]
    have high : char.toNat ≤ 90 := Char.le_def.mp upper.2
    have valid : (char.toNat + 32).isValidChar := Or.inl (by omega)
    have lowered : (Char.ofNat (char.toNat + 32)).toNat < 128 := by
      rw [Char.ofNat, dif_pos valid]
      change char.toNat + 32 < 128
      omega
    rw [utf8Size_low char (by omega), utf8Size_low _ lowered]
  · rw [if_neg upper]

theorem byteLength_lower (text : List Char) :
    byteLength (text.map asciiLower) = byteLength text := by
  induction text with
  | nil => rfl
  | cons char rest ih => rw [List.map_cons, byteLength_cons, byteLength_cons, asciiLower_size, ih]

theorem boundary_of_lower (text : List Char) (index : Nat)
    (lowered : IsBoundary (text.map asciiLower) index) : IsBoundary text index := by
  rcases lowered with ⟨front, back, whole, size⟩
  obtain ⟨first, rest, rfl, rfl, rfl⟩ := List.map_eq_append_iff.mp whole
  exact ⟨first, rest, rfl, by rw [← byteLength_lower, size]⟩

theorem alpha_code (char : Char) (alpha : char.isAlpha = true) :
    (65 ≤ char.toNat ∧ char.toNat ≤ 90) ∨ (97 ≤ char.toNat ∧ char.toNat ≤ 122) := by
  rcases Bool.or_eq_true_iff.mp alpha with upper | lower
  · have bounds : 'A'.val ≤ char.val ∧ char.val ≤ 'Z'.val := of_decide_eq_true upper
    exact .inl ⟨UInt32.le_iff_toNat_le.mp bounds.1, UInt32.le_iff_toNat_le.mp bounds.2⟩
  · obtain ⟨low, high⟩ := Bool.and_eq_true_iff.mp lower
    have bounds : 'a'.val ≤ char.val ∧ char.val ≤ 'z'.val :=
      ⟨of_decide_eq_true low, of_decide_eq_true high⟩
    exact .inr ⟨UInt32.le_iff_toNat_le.mp bounds.1, UInt32.le_iff_toNat_le.mp bounds.2⟩

theorem digit_code (char : Char) (digit : char.isDigit = true) :
    48 ≤ char.toNat ∧ char.toNat ≤ 57 := by
  obtain ⟨low, high⟩ := Bool.and_eq_true_iff.mp digit
  have bounds : '0'.val ≤ char.val ∧ char.val ≤ '9'.val :=
    ⟨of_decide_eq_true low, of_decide_eq_true high⟩
  exact ⟨UInt32.le_iff_toNat_le.mp bounds.1, UInt32.le_iff_toNat_le.mp bounds.2⟩

/-! Numbers read back. -/

theorem digitChar_value (digit : Nat) (small : digit < 10) :
    digit.digitChar.isDigit = true ∧ digit.digitChar.toNat - 48 = digit := by
  have checked : ∀ digit < 10, digit.digitChar.isDigit = true ∧ digit.digitChar.toNat - 48 = digit := by
    decide
  exact checked digit small

theorem digitsValue_concat (text : List Char) (char : Char) (value : Nat)
    (front : digitsValue text = some value) (digit : char.isDigit = true) :
    digitsValue (text ++ [char]) = some (value * 10 + (char.toNat - 48)) := by
  unfold digitsValue at front ⊢
  rw [List.foldl_append, front]
  exact if_pos digit

theorem digitsValue_decimal (value : Nat) : digitsValue (decimal value) = some value := by
  unfold decimal
  induction value using Nat.strongRecOn with
  | ind value ih =>
      by_cases small : value < 10
      · obtain ⟨digit, same⟩ := digitChar_value value small
        rw [Nat.toDigits_of_lt_base small]
        have single := digitsValue_concat [] value.digitChar 0 rfl digit
        rw [same, Nat.zero_mul, Nat.zero_add] at single
        exact single
      · have large : 10 ≤ value := Nat.le_of_not_lt small
        obtain ⟨digit, same⟩ := digitChar_value (value % 10) (Nat.mod_lt _ (by decide))
        rw [Nat.toDigits_of_base_le (by decide) large,
          digitsValue_concat _ _ _ (ih (value / 10) (by omega)) digit, same]
        congr 1
        omega

theorem decimal_digit (value : Nat) (char : Char) (member : char ∈ decimal value) :
    char.isDigit = true :=
  Nat.isDigit_of_mem_toDigits (by decide) (by decide) member

theorem decimal_ne_nil (value : Nat) : decimal value ≠ [] := by
  intro empty
  have parsed := digitsValue_decimal value
  rw [empty] at parsed
  by_cases zero : value = 0
  · rw [zero] at empty
    exact absurd empty (by decide)
  · exact zero (Option.some.inj parsed).symm

theorem digit_black (char : Char) (digit : char.isDigit = true) : isWhitespace char = false := by
  have code := digit_code char digit
  unfold isWhitespace
  simp only [Bool.or_eq_false_iff, Bool.and_eq_false_iff, decide_eq_false_iff_not, beq_eq_false_iff_ne]
  omega

theorem decimal_trimmed (value : Nat) : Trimmed (decimal value) where
  head := by
    intro char rest shape
    exact digit_black char (decimal_digit value char (by rw [shape]; exact List.mem_cons_self))
  last := by
    intro front char shape
    exact digit_black char (decimal_digit value char (by rw [shape]; simp))

theorem parseU16_decimal (value : UInt16) : parseU16 (decimal value.toNat) = some value := by
  obtain ⟨char, rest, shape⟩ := List.exists_cons_of_ne_nil (decimal_ne_nil value.toNat)
  have digit := decimal_digit value.toNat char (by rw [shape]; exact List.mem_cons_self)
  have unsigned : ¬ (decimal value.toNat).head? = some '+' := by
    rw [shape]
    rintro ⟨⟩
    exact absurd digit (by decide)
  unfold parseU16
  dsimp only
  rw [if_neg unsigned, if_neg (by rw [shape]; exact Bool.false_ne_true), digitsValue_decimal]
  dsimp only
  rw [if_pos value.toNat_lt, UInt16.ofNat_toNat]

end OpenMediaTransport.Text
