import OpenMediaTransport.CheckedMemory
import OpenMediaTransport.VideoEncoder

/-!
`VideoEncoder::save_bitstream`: the codec writes into a buffer, which is enlarged each time
the codec finds it too small. The codec is one of another crate; what it writes and what it
answers, call by call, is given.
-/

namespace OpenMediaTransport

open CheckedMemory

inductive VmxError (ε : Type) where
  | outputTooSmall (need : Nat)
  | bufferOverflow
  | other (error : ε)

/-- What one call of `save_to` leaves in the slice, and its answer. -/
structure SaveReply (ε : Type) where
  bytes : List UInt8
  answer : Except (VmxError ε) Nat

inductive SaveTurn (ε : Type) where
  | done (bitstream : List UInt8)
  | failed (error : VmxError ε)
  | aborted (fault : Fault)
  | again (buf : List UInt8)

/-- `lengths` are those of the buffer that `save_to` was given, call by call. -/
structure Saved (ε : Type) where
  lengths : List Nat
  result : Except Fault (Except (EncodeError (VmxError ε)) (List UInt8))
  buf : List UInt8
  spare : List UInt8

namespace BitstreamSave

def usizeMax : Nat := 2 ^ 64 - 1

def saturatingMul (left right : Nat) : Nat := min (left * right) usizeMax

def saturatingAdd (left right : Nat) : Nat := min (left + right) usizeMax

def saveBufMin (width height : Int32) : Nat :=
  let pixels := saturatingMul width.toInt.toNat height.toInt.toNat
  max (saturatingMul pixels 2) (2 ^ 20)

def cap : Nat := 256 * 2 ^ 20

def resize (buf : List UInt8) (length : Nat) : Except Fault (List UInt8) :=
  if length ≤ isizeMax then
    .ok (buf.take length ++ List.replicate (length - buf.length) 0)
  else .error .capacityOverflow

def overwrite (buf bytes : List UInt8) : List UInt8 :=
  bytes.take buf.length ++ buf.drop bytes.length

section Loop
variable {ε : Type}

def growSaveBuf (length : Nat) : Except (VmxError ε) Nat :=
  let grown := max (saturatingMul length 2) (saturatingAdd length (2 ^ 20))
  let next := min grown cap
  if next ≤ length then .error .bufferOverflow else .ok next

def enlarge (buf : List UInt8) (wanted : Nat → Nat) : SaveTurn ε :=
  match growSaveBuf buf.length with
  | .error error => .failed error
  | .ok next =>
      match resize buf (wanted next) with
      | .error fault => .aborted fault
      | .ok longer => .again longer

def saveTurn (buf : List UInt8) : Except (VmxError ε) Nat → SaveTurn ε
  | .ok size => .done (buf.take size)
  | .error (.outputTooSmall need) => enlarge buf (max need)
  | .error .bufferOverflow => enlarge buf id
  | .error error => .failed error

theorem resize_ok (buf longer : List UInt8) (length : Nat) (resized : resize buf length = .ok longer) :
    longer.length = length := by
  unfold resize at resized
  split at resized
  · cases resized
    simp only [List.length_append, List.length_take, List.length_replicate]
    omega
  · cases resized

theorem resize_error (buf : List UInt8) (length : Nat) (fault : Fault)
    (refused : resize buf length = .error fault) : isizeMax < length ∧ fault = .capacityOverflow := by
  unfold resize at refused
  split at refused
  · cases refused
  · rename_i huge
    cases refused
    exact ⟨Nat.lt_of_not_le huge, rfl⟩

theorem overwrite_length (buf bytes : List UInt8) : (overwrite buf bytes).length = buf.length := by
  unfold overwrite
  simp only [List.length_append, List.length_take, List.length_drop]
  omega

theorem growSaveBuf_ok (length next : Nat) (grown : growSaveBuf (ε := ε) length = .ok next) :
    length < next ∧ next ≤ cap ∧ min (2 * length) cap ≤ next := by
  unfold growSaveBuf saturatingMul saturatingAdd usizeMax at grown
  dsimp only at grown
  split at grown
  · cases grown
  · rename_i longer
    cases grown
    unfold cap at longer ⊢
    omega

theorem growSaveBuf_error (length : Nat) (error : VmxError ε)
    (stuck : growSaveBuf length = .error error) : cap ≤ length ∧ error = .bufferOverflow := by
  unfold growSaveBuf saturatingMul saturatingAdd usizeMax at stuck
  dsimp only at stuck
  split at stuck
  · rename_i short
    cases stuck
    refine ⟨?_, rfl⟩
    unfold cap at short ⊢
    omega
  · cases stuck

/-- The answers on which the loop goes on if it can. -/
def AsksMore : Except (VmxError ε) Nat → Prop
  | .error (.outputTooSmall _) => True
  | .error .bufferOverflow => True
  | _ => False

theorem enlarge_cases (buf : List UInt8) (wanted : Nat → Nat) (keeps : ∀ next, next ≤ wanted next) :
    cap ≤ buf.length ∧ enlarge (ε := ε) buf wanted = .failed .bufferOverflow ∨
      buf.length < cap ∧
        ((∃ next ≤ cap, isizeMax < wanted next ∧
            enlarge (ε := ε) buf wanted = .aborted .capacityOverflow) ∨
          ∃ longer, buf.length < longer.length ∧ min (2 * buf.length) cap ≤ longer.length ∧
            enlarge (ε := ε) buf wanted = .again longer) := by
  unfold enlarge
  cases grown : growSaveBuf (ε := ε) buf.length with
  | error error =>
      obtain ⟨full, rfl⟩ := growSaveBuf_error buf.length error grown
      exact .inl ⟨full, rfl⟩
  | ok next =>
      obtain ⟨more, small, doubled⟩ := growSaveBuf_ok buf.length next grown
      refine .inr ⟨Nat.lt_of_lt_of_le more small, ?_⟩
      dsimp only
      cases resized : resize buf (wanted next) with
      | error fault =>
          obtain ⟨huge, rfl⟩ := resize_error buf (wanted next) fault resized
          exact .inl ⟨next, small, huge, rfl⟩
      | ok longer =>
          have least := keeps next
          have length := resize_ok buf longer (wanted next) resized
          refine .inr ⟨longer, ?_, ?_, rfl⟩ <;> omega

/-- Asked for a longer buffer, the loop gives up at the cap, and has one of twice the length up
to it otherwise, unless none can be as long as the codec needs. -/
theorem saveTurn_asked (buf : List UInt8) (answer : Except (VmxError ε) Nat) (asks : AsksMore answer) :
    cap ≤ buf.length ∧ saveTurn buf answer = .failed .bufferOverflow ∨
      buf.length < cap ∧
        ((∃ need, answer = .error (.outputTooSmall need) ∧ isizeMax < need ∧
            saveTurn buf answer = .aborted .capacityOverflow) ∨
          ∃ longer, buf.length < longer.length ∧ min (2 * buf.length) cap ≤ longer.length ∧
            saveTurn buf answer = .again longer) := by
  have capFits : cap ≤ isizeMax := by decide
  cases answer with
  | ok size => cases asks
  | error error =>
      cases error with
      | other error => cases asks
      | outputTooSmall need =>
          rcases enlarge_cases (ε := ε) buf (max need) (fun next => Nat.le_max_right need next) with
            full | ⟨room, ⟨next, small, huge, aborted⟩ | again⟩
          · exact .inl full
          · exact .inr ⟨room, .inl ⟨need, rfl, by omega, aborted⟩⟩
          · exact .inr ⟨room, .inr again⟩
      | bufferOverflow =>
          rcases enlarge_cases (ε := ε) buf id Nat.le_refl with
            full | ⟨room, ⟨next, small, huge, _⟩ | again⟩
          · exact .inl full
            -- The code's own step stops at the cap, which a vector can have.
          · exact absurd huge (Nat.not_lt_of_le (Nat.le_trans small capFits))
          · exact .inr ⟨room, .inr again⟩

/-- The length of the next buffer, when the loop itself would go on with `next`. -/
def request : Except (VmxError ε) Nat → Nat → Nat
  | .error (.outputTooSmall need), next => max need next
  | _, next => next

theorem enlarge_again (buf longer : List UInt8) (wanted : Nat → Nat)
    (again : enlarge (ε := ε) buf wanted = .again longer) :
    ∃ next, growSaveBuf (ε := ε) buf.length = .ok next ∧ longer.length = wanted next ∧
      wanted next ≤ isizeMax := by
  unfold enlarge at again
  split at again
  · cases again
  · rename_i next grown
    split at again
    · cases again
    · rename_i result resized
      cases again
      refine ⟨next, grown, resize_ok buf longer _ resized, ?_⟩
      unfold resize at resized
      split at resized
      · assumption
      · cases resized

theorem saveTurn_request (buf longer : List UInt8) (answer : Except (VmxError ε) Nat)
    (again : saveTurn buf answer = .again longer) :
    AsksMore answer ∧ ∃ next, growSaveBuf (ε := ε) buf.length = .ok next ∧
      longer.length = request answer next ∧ request answer next ≤ isizeMax := by
  cases answer with
  | ok size => cases again
  | error error =>
      cases error with
      | other error => cases again
      | outputTooSmall need => exact ⟨trivial, enlarge_again buf longer _ again⟩
      | bufferOverflow => exact ⟨trivial, enlarge_again buf longer _ again⟩

theorem saveTurn_again (buf longer : List UInt8) (answer : Except (VmxError ε) Nat)
    (again : saveTurn buf answer = .again longer) :
    buf.length < cap ∧ buf.length < longer.length ∧ min (2 * buf.length) cap ≤ longer.length := by
  have asks : AsksMore answer := by
    cases answer with
    | ok size => cases again
    | error error =>
        cases error with
        | other error => cases again
        | outputTooSmall need => trivial
        | bufferOverflow => trivial
  rcases saveTurn_asked buf answer asks with ⟨_, failed⟩ | ⟨room, ⟨_, _, _, aborted⟩ | ⟨_, more, doubled, same⟩⟩
  · cases again.symm.trans failed
  · cases again.symm.trans aborted
  · cases again.symm.trans same
    exact ⟨room, more, doubled⟩

/-- One of the answers that the loop comes to, in a buffer below the cap, asks for more bytes than
a vector can have. `length` is that of the first buffer. -/
inductive Overasks : (Nat → SaveReply ε) → Nat → Prop where
  | here (answers : Nat → SaveReply ε) (length need : Nat) (room : length < cap)
      (answer : (answers 0).answer = .error (.outputTooSmall need)) (huge : isizeMax < need) :
      Overasks answers length
  | later (answers : Nat → SaveReply ε) (length next : Nat) (asks : AsksMore (answers 0).answer)
      (grown : growSaveBuf (ε := ε) length = .ok next)
      (rest : Overasks (fun call => answers (call + 1)) (request (answers 0).answer next)) :
      Overasks answers length

def saveLoop (answers : Nat → SaveReply ε) (buf spare : List UInt8) : Saved ε :=
  let written := overwrite buf (answers 0).bytes
  match _ : saveTurn written (answers 0).answer with
  | .done bitstream => ⟨[buf.length], .ok (.ok bitstream), spare, []⟩
  | .failed error => ⟨[buf.length], .ok (.error (.vmx error)), written, spare⟩
  | .aborted fault => ⟨[buf.length], .error fault, written, spare⟩
  | .again longer =>
      let later := saveLoop (fun call => answers (call + 1)) longer spare
      { later with lengths := buf.length :: later.lengths }
termination_by cap - buf.length
decreasing_by
  rename_i again
  obtain ⟨small, more, _⟩ := saveTurn_again _ longer _ again
  rw [overwrite_length] at small more
  omega

def saveBitstream (width height : Int32) (answers : Nat → SaveReply ε) (buf spare : List UInt8) :
    Saved ε :=
  let least := saveBufMin width height
  if buf.length < least then
    match resize buf least with
    | .error fault => ⟨[], .error fault, buf, spare⟩
    | .ok longer => saveLoop answers longer spare
  else saveLoop answers buf spare

/-! The loop, call by call. -/

theorem saveLoop_lengths (answers : Nat → SaveReply ε) (buf spare : List UInt8) :
    ∃ later, (saveLoop answers buf spare).lengths = buf.length :: later := by
  unfold saveLoop
  dsimp only
  split <;> exact ⟨_, rfl⟩

theorem saveLoop_calls (left : Nat) (answers : Nat → SaveReply ε) (buf spare : List UInt8)
    (near : cap ≤ buf.length * 2 ^ left) :
    (saveLoop answers buf spare).lengths.length ≤ left + 1 := by
  induction left generalizing answers buf with
  | zero =>
      unfold saveLoop
      dsimp only
      split
      case h_4 longer again =>
        obtain ⟨small, _, _⟩ := saveTurn_again _ longer _ again
        rw [overwrite_length] at small
        omega
      all_goals exact Nat.le_refl 1
  | succ left ih =>
      unfold saveLoop
      dsimp only
      split
      case h_4 longer again =>
        obtain ⟨_, _, doubled⟩ := saveTurn_again _ longer _ again
        rw [overwrite_length] at doubled
        -- Either the cap is reached by this doubling, or the length has doubled.
        have near' : cap ≤ longer.length * 2 ^ left := by
          have positive : 0 < 2 ^ left := Nat.two_pow_pos left
          rcases Nat.le_total cap (2 * buf.length) with full | room
          · rw [Nat.min_eq_right full] at doubled
            exact Nat.le_trans doubled (Nat.le_mul_of_pos_right _ positive)
          · rw [Nat.min_eq_left room] at doubled
            calc cap ≤ buf.length * 2 ^ (left + 1) := near
              _ = 2 * buf.length * 2 ^ left := by rw [Nat.pow_succ']; ac_rfl
              _ ≤ longer.length * 2 ^ left := Nat.mul_le_mul_right _ doubled
        exact Nat.succ_le_succ (ih _ longer near')
      all_goals exact Nat.succ_le_succ (Nat.zero_le _)

theorem saveLoop_longer (answers : Nat → SaveReply ε) (buf spare : List UInt8) :
    (saveLoop answers buf spare).lengths.IsChain (· < ·) := by
  fun_induction saveLoop answers buf spare with
  | case1 | case2 | case3 => exact List.IsChain.singleton _
  | case4 answers buf written longer again later ih =>
      obtain ⟨_, more, _⟩ := saveTurn_again _ longer _ again
      rw [overwrite_length] at more
      obtain ⟨rest, shape⟩ := saveLoop_lengths (fun call => answers (call + 1)) longer spare
      change (saveLoop _ longer spare).lengths.IsChain _ at ih
      change (buf.length :: (saveLoop _ longer spare).lengths).IsChain _
      rw [shape] at ih ⊢
      exact List.IsChain.cons_cons more ih

theorem saveLoop_last (answers : Nat → SaveReply ε) (buf spare : List UInt8) (length : Nat)
    (last : (saveLoop answers buf spare).lengths.getLast? = some length)
    (asks : AsksMore (answers ((saveLoop answers buf spare).lengths.length - 1)).answer) :
    cap ≤ length ∧ (saveLoop answers buf spare).result = .ok (.error (.vmx .bufferOverflow)) ∨
      length < cap ∧ ∃ need,
        (answers ((saveLoop answers buf spare).lengths.length - 1)).answer =
            .error (.outputTooSmall need) ∧
          isizeMax < need ∧ (saveLoop answers buf spare).result = .error .capacityOverflow := by
  fun_induction saveLoop answers buf spare with
  | case1 answers buf written bitstream done =>
      rcases saveTurn_asked written _ asks with ⟨_, failed⟩ | ⟨_, ⟨_, _, _, aborted⟩ | ⟨_, _, _, again⟩⟩
      · cases done.symm.trans failed
      · cases done.symm.trans aborted
      · cases done.symm.trans again
  | case2 answers buf written error failed =>
      cases last
      rcases saveTurn_asked written _ asks with ⟨full, same⟩ | ⟨_, ⟨_, _, _, aborted⟩ | ⟨_, _, _, again⟩⟩
      · cases failed.symm.trans same
        rw [overwrite_length] at full
        exact .inl ⟨full, rfl⟩
      · cases failed.symm.trans aborted
      · cases failed.symm.trans again
  | case3 answers buf written fault aborted =>
      cases last
      rcases saveTurn_asked written _ asks with ⟨_, failed⟩ | ⟨room, ⟨need, asked, huge, same⟩ | ⟨_, _, _, again⟩⟩
      · cases aborted.symm.trans failed
      · cases aborted.symm.trans same
        rw [overwrite_length] at room
        exact .inr ⟨room, need, asked, huge, rfl⟩
      · cases aborted.symm.trans again
  | case4 answers buf written longer again later ih =>
      obtain ⟨rest, shape⟩ := saveLoop_lengths (fun call => answers (call + 1)) longer spare
      have calls : later.lengths.length = rest.length + 1 := congrArg List.length shape
      change (buf.length :: later.lengths).getLast? = some length at last
      change AsksMore (answers later.lengths.length).answer at asks
      change cap ≤ length ∧ later.result = _ ∨ length < cap ∧ ∃ need,
        (answers later.lengths.length).answer = _ ∧ _ ∧ later.result = _
      -- The last call of the turns that follow is the last of all.
      have ended : later.lengths.getLast? = some length := by
        rw [← last]
        change _ = (buf.length :: (saveLoop _ longer spare).lengths).getLast?
        rw [shape, List.getLast?_cons_cons, ← shape]
      have index : later.lengths.length - 1 + 1 = later.lengths.length := by omega
      rw [← index] at asks ⊢
      exact ih ended asks

theorem overasks_turn (answers : Nat → SaveReply ε) (buf : List UInt8)
    (overasks : Overasks answers buf.length) :
    AsksMore (answers 0).answer ∧
      (saveTurn buf (answers 0).answer = .aborted .capacityOverflow ∨
        ∃ longer, saveTurn buf (answers 0).answer = .again longer ∧
          Overasks (fun call => answers (call + 1)) longer.length) := by
  cases overasks with
  | here _ _ need room answer huge =>
      have asks : AsksMore (answers 0).answer := by rw [answer]; trivial
      refine ⟨asks, .inl ?_⟩
      rcases saveTurn_asked buf _ asks with ⟨full, _⟩ | ⟨_, ⟨_, _, _, aborted⟩ | ⟨longer, _, _, again⟩⟩
      · exact absurd room (Nat.not_lt_of_le full)
      · exact aborted
      · obtain ⟨-, next, -, -, fits⟩ := saveTurn_request buf longer _ again
        rw [answer] at fits
        exact absurd huge (Nat.not_lt_of_le (Nat.le_trans (Nat.le_max_left need next) fits))
  | later _ _ next asks grown rest =>
      refine ⟨asks, ?_⟩
      rcases saveTurn_asked buf _ asks with ⟨full, _⟩ | ⟨_, ⟨_, _, _, aborted⟩ | ⟨longer, _, _, again⟩⟩
      · obtain ⟨more, small, _⟩ := growSaveBuf_ok buf.length next grown
        exact absurd full (Nat.not_le_of_gt (Nat.lt_of_lt_of_le more small))
      · exact .inl aborted
      · obtain ⟨-, other, same, length, -⟩ := saveTurn_request buf longer _ again
        cases grown.symm.trans same
        exact .inr ⟨longer, again, length ▸ rest⟩

theorem saveLoop_aborts (answers : Nat → SaveReply ε) (buf spare : List UInt8)
    (overasks : Overasks answers buf.length) :
    AsksMore (answers ((saveLoop answers buf spare).lengths.length - 1)).answer ∧
      (saveLoop answers buf spare).result = .error .capacityOverflow := by
  fun_induction saveLoop answers buf spare with
  | case1 answers buf written bitstream done =>
      rw [← overwrite_length buf (answers 0).bytes] at overasks
      obtain ⟨-, aborted | ⟨longer, again, _⟩⟩ := overasks_turn answers written overasks
      · cases done.symm.trans aborted
      · cases done.symm.trans again
  | case2 answers buf written error failed =>
      rw [← overwrite_length buf (answers 0).bytes] at overasks
      obtain ⟨-, aborted | ⟨longer, again, _⟩⟩ := overasks_turn answers written overasks
      · cases failed.symm.trans aborted
      · cases failed.symm.trans again
  | case3 answers buf written fault aborted =>
      rw [← overwrite_length buf (answers 0).bytes] at overasks
      obtain ⟨asks, same | ⟨longer, again, _⟩⟩ := overasks_turn answers written overasks
      · cases aborted.symm.trans same
        exact ⟨asks, rfl⟩
      · cases aborted.symm.trans again
  | case4 answers buf written longer again later ih =>
      rw [← overwrite_length buf (answers 0).bytes] at overasks
      obtain ⟨-, aborted | ⟨other, same, rest⟩⟩ := overasks_turn answers written overasks
      · cases again.symm.trans aborted
      · cases again.symm.trans same
        obtain ⟨rest', shape⟩ := saveLoop_lengths (fun call => answers (call + 1)) longer spare
        have calls : later.lengths.length = rest'.length + 1 := congrArg List.length shape
        have index : later.lengths.length - 1 + 1 = later.lengths.length := by omega
        obtain ⟨asks, ended⟩ := ih rest
        change AsksMore (answers (later.lengths.length - 1 + 1)).answer at asks
        rw [index] at asks
        exact ⟨asks, ended⟩

theorem saveLoop_overasks (answers : Nat → SaveReply ε) (buf spare : List UInt8) (fault : Fault)
    (ended : (saveLoop answers buf spare).result = .error fault) : Overasks answers buf.length := by
  fun_induction saveLoop answers buf spare with
  | case1 | case2 => cases ended
  | case3 answers buf written fault aborted =>
      have asks : AsksMore (answers 0).answer := by
        cases answer : (answers 0).answer with
        | ok size => rw [answer] at aborted; cases aborted
        | error error =>
            cases error with
            | other error => rw [answer] at aborted; cases aborted
            | outputTooSmall need => trivial
            | bufferOverflow => trivial
      rcases saveTurn_asked written _ asks with ⟨_, failed⟩ | ⟨room, ⟨need, asked, huge, _⟩ | ⟨_, _, _, again⟩⟩
      · cases aborted.symm.trans failed
      · rw [overwrite_length] at room
        exact .here answers buf.length need room asked huge
      · cases aborted.symm.trans again
  | case4 answers buf written longer again later ih =>
      obtain ⟨asks, next, grown, length, -⟩ := saveTurn_request written longer _ again
      rw [overwrite_length] at grown
      exact .later answers buf.length next asks grown (length ▸ ih ended)

/-! From the encoder's buffer. -/

theorem saveBufMin_bounds (width height : Int32) :
    2 ^ 20 ≤ saveBufMin width height ∧ saveBufMin width height ≤ isizeMax := by
  have wide : width.toInt.toNat ≤ 2 ^ 31 - 1 := by
    have := width.toInt_lt
    omega
  have high : height.toInt.toNat ≤ 2 ^ 31 - 1 := by
    have := height.toInt_lt
    omega
  have pixels := Nat.mul_le_mul wide high
  unfold saveBufMin saturatingMul usizeMax isizeMax
  dsimp only
  constructor
  · exact Nat.le_max_right ..
  · omega

def firstLength (width height : Int32) (buf : List UInt8) : Nat :=
  max buf.length (saveBufMin width height)

theorem saveBitstream_loop (width height : Int32) (answers : Nat → SaveReply ε)
    (buf spare : List UInt8) :
    ∃ start, start.length = firstLength width height buf ∧
      saveBitstream width height answers buf spare = saveLoop answers start spare := by
  obtain ⟨least, fits⟩ := saveBufMin_bounds width height
  unfold saveBitstream firstLength
  dsimp only
  split
  · rename_i short
    cases resized : resize buf (saveBufMin width height) with
    | error fault =>
        have huge := (resize_error buf _ fault resized).1
        exact absurd fits (Nat.not_le_of_gt huge)
    | ok longer =>
        refine ⟨longer, ?_, rfl⟩
        rw [resize_ok buf longer _ resized, Nat.max_eq_right (Nat.le_of_lt short)]
  · rename_i enough
    exact ⟨buf, (Nat.max_eq_left (Nat.le_of_not_lt enough)).symm, rfl⟩

/-- `save_to` is called nine times at most, with a longer buffer each time, and if its last answer
asks for more, the buffer has reached the cap and that is the error: so it is if and only if no
answer below the cap asks for more than a vector can hold. -/
theorem saveBitstream_ends_iff (width height : Int32) (answers : Nat → SaveReply ε)
    (buf spare : List UInt8) :
    let saved := saveBitstream width height answers buf spare
    (saved.lengths.length ≤ 9 ∧ saved.lengths.IsChain (· < ·) ∧
      ∃ length, saved.lengths.getLast? = some length ∧
        (AsksMore (answers (saved.lengths.length - 1)).answer →
          cap ≤ length ∧ saved.result = .ok (.error (.vmx .bufferOverflow)))) ↔
      ¬ Overasks answers (firstLength width height buf) := by
  dsimp only
  obtain ⟨start, first, same⟩ := saveBitstream_loop width height answers buf spare
  have least : 2 ^ 20 ≤ start.length := by
    rw [first]
    exact Nat.le_trans (saveBufMin_bounds width height).1 (Nat.le_max_right _ _)
  rw [same, ← first]
  constructor
  · rintro ⟨-, -, length, -, ends⟩ overasks
    obtain ⟨asks, aborted⟩ := saveLoop_aborts answers start spare overasks
    cases (ends asks).2.symm.trans aborted
  · intro modest
    refine ⟨?_, saveLoop_longer answers start spare, ?_⟩
    · -- A mebibyte doubles to the cap in eight steps.
      exact saveLoop_calls 8 answers start spare (Nat.mul_le_mul_right (2 ^ 8) least)
    · obtain ⟨later, shape⟩ := saveLoop_lengths answers start spare
      obtain ⟨length, last⟩ :
          ∃ length, (saveLoop answers start spare).lengths.getLast? = some length := by
        rw [shape]
        exact ⟨_, List.getLast?_eq_some_getLast (List.cons_ne_nil _ _)⟩
      refine ⟨length, last, fun asks => ?_⟩
      rcases saveLoop_last answers start spare length last asks with full | ⟨_, _, _, _, aborted⟩
      · exact full
      · exact absurd (saveLoop_overasks answers start spare _ aborted) modest

/-- The first answer asks for 2^63 bytes; the one call is not enough, and no error is returned. -/
theorem need_beyond_vectors :
    let answers : Nat → SaveReply Unit := fun _ => ⟨[], .error (.outputTooSmall (2 ^ 63))⟩
    let saved := saveBitstream 16 16 answers [] []
    saved.result = .error .capacityOverflow ∧
      AsksMore (answers (saved.lengths.length - 1)).answer ∧
      ¬ ∃ length, saved.lengths.getLast? = some length ∧
        (AsksMore (answers (saved.lengths.length - 1)).answer →
          cap ≤ length ∧ saved.result = .ok (.error (.vmx .bufferOverflow))) := by
  dsimp only
  obtain ⟨start, first, same⟩ := saveBitstream_loop 16 16
    (fun _ => (⟨[], .error (.outputTooSmall (2 ^ 63))⟩ : SaveReply Unit)) [] []
  have room : start.length < cap := by
    rw [first]
    decide
  obtain ⟨asks, aborted⟩ := saveLoop_aborts _ start []
    (.here (fun _ => (⟨[], .error (.outputTooSmall (2 ^ 63))⟩ : SaveReply Unit)) start.length
      (2 ^ 63) room rfl (by decide))
  rw [same]
  refine ⟨aborted, asks, fun ⟨length, _, ends⟩ => ?_⟩
  cases (ends asks).2.symm.trans aborted

end Loop

end BitstreamSave

end OpenMediaTransport
