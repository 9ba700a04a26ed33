import Mathlib.Data.List.Basic

/-!
Cutting a symbol stream into items when the stream arrives in pieces.

A decoder looks only at the front of its buffer and says one of three things:
wait for more, an item of known width stands in front, or the stream is broken
beyond repair. What it has said once it repeats when more symbols follow; that
single law makes the result independent of how the stream was cut. After a
break the buffer is thrown away, so nothing is promised about what follows it.
-/

namespace OpenMediaTransport.Framing

universe u v w

inductive Verdict (β : Type v) (ε : Type w) where
  | wait
  | item (out : β) (width : Nat)
  | halt (err : ε)

structure Decoder (α : Type u) (β : Type v) (ε : Type w) where
  inspect : List α → Verdict β ε
  empty_waits : inspect [] = .wait
  item_width : ∀ buffer out width, inspect buffer = .item out width →
    0 < width ∧ width ≤ buffer.length
  item_stable : ∀ buffer more out width, inspect buffer = .item out width →
    inspect (buffer ++ more) = .item out width
  halt_stable : ∀ buffer more err, inspect buffer = .halt err →
    inspect (buffer ++ more) = .halt err

/-- What a reader of the decoder observes, call by call. -/
inductive Event (β : Type v) (ε : Type w) where
  | item (out : β)
  | halt (err : ε)
  deriving DecidableEq

variable {α : Type u} {β : Type v} {ε : Type w}

def drain (decoder : Decoder α β ε) (buffer : List α) : List (Event β ε) × List α :=
  match _seen : decoder.inspect buffer with
  | .wait => ([], buffer)
  | .item out width =>
      let tail := drain decoder (buffer.drop width)
      (.item out :: tail.1, tail.2)
  | .halt err => ([.halt err], [])
termination_by buffer.length
decreasing_by
  have bound := decoder.item_width buffer out width _seen
  simp only [List.length_drop]
  omega

def feed (decoder : Decoder α β ε) (buffer : List α) : List (List α) → List (Event β ε) × List α
  | [] => ([], buffer)
  | chunk :: rest =>
      let head := drain decoder (buffer ++ chunk)
      let tail := feed decoder head.2 rest
      (head.1 ++ tail.1, tail.2)

/-- The log up to and including the first break. -/
def untilHalt : List (Event β ε) → List (Event β ε)
  | [] => []
  | .item out :: rest => .item out :: untilHalt rest
  | .halt err :: _ => [.halt err]

def Unbroken (log : List (Event β ε)) : Prop := ∀ err, .halt err ∉ log

theorem unbroken_cons_item (out : β) (rest : List (Event β ε)) :
    Unbroken (.item out :: rest) ↔ Unbroken rest := by
  constructor
  · intro clean err member
    exact clean err (List.mem_cons_of_mem _ member)
  · intro clean err member
    rcases List.mem_cons.mp member with same | later
    · cases same
    · exact clean err later

theorem untilHalt_keeps (log : List (Event β ε)) : Unbroken (untilHalt log) ↔ Unbroken log := by
  induction log with
  | nil => rfl
  | cons event rest ih =>
      cases event with
      | item out => rw [untilHalt, unbroken_cons_item, unbroken_cons_item, ih]
      | halt err =>
          constructor
          · intro clean; exact absurd List.mem_cons_self (clean err)
          · intro clean; exact absurd List.mem_cons_self (clean err)

theorem untilHalt_unbroken (front back : List (Event β ε)) (clean : Unbroken front) :
    untilHalt (front ++ back) = front ++ untilHalt back := by
  induction front with
  | nil => rfl
  | cons event rest ih =>
      have tail : Unbroken rest := fun err member => clean err (List.mem_cons_of_mem event member)
      cases event with
      | item out => simp [untilHalt, ih tail]
      | halt err => exact absurd List.mem_cons_self (clean err)

theorem untilHalt_broken (front back : List (Event β ε)) (broken : ¬ Unbroken front) :
    untilHalt (front ++ back) = untilHalt front := by
  induction front with
  | nil => exact absurd (fun _ => List.not_mem_nil) broken
  | cons event rest ih =>
      cases event with
      | halt err => rfl
      | item out =>
          have tail : ¬ Unbroken rest := fun clean => broken ((unbroken_cons_item out rest).mpr clean)
          simp [untilHalt, ih tail]

section Drain
variable (decoder : Decoder α β ε)

theorem drain_wait (buffer : List α) (seen : decoder.inspect buffer = .wait) :
    drain decoder buffer = ([], buffer) := by
  rw [drain]
  split <;> simp_all

theorem drain_item (buffer : List α) (out : β) (width : Nat)
    (seen : decoder.inspect buffer = .item out width) :
    drain decoder buffer = (.item out :: (drain decoder (buffer.drop width)).1,
      (drain decoder (buffer.drop width)).2) := by
  rw [drain]
  split <;> simp_all

theorem drain_halt (buffer : List α) (err : ε) (seen : decoder.inspect buffer = .halt err) :
    drain decoder buffer = ([.halt err], []) := by
  rw [drain]
  split <;> simp_all

theorem drain_leaves_waiting (buffer : List α) :
    decoder.inspect (drain decoder buffer).2 = .wait := by
  fun_induction drain decoder buffer with
  | case1 buffer seen => exact seen
  | case2 buffer out width seen tail ih => exact ih
  | case3 => exact decoder.empty_waits

theorem drain_shorter (buffer : List α) : (drain decoder buffer).2.length ≤ buffer.length := by
  fun_induction drain decoder buffer with
  | case1 buffer seen => exact Nat.le_refl _
  | case2 buffer out width seen tail ih =>
      rw [List.length_drop] at ih
      exact Nat.le_trans ih (Nat.sub_le _ _)
  | case3 => exact Nat.zero_le _

/-- Draining a longer buffer repeats the shorter drain and continues from what
it left, or stops at the same break. -/
theorem drain_append (buffer more : List α) :
    (Unbroken (drain decoder buffer).1 →
      drain decoder (buffer ++ more) =
        ((drain decoder buffer).1 ++ (drain decoder ((drain decoder buffer).2 ++ more)).1,
          (drain decoder ((drain decoder buffer).2 ++ more)).2)) ∧
    (¬ Unbroken (drain decoder buffer).1 →
      drain decoder (buffer ++ more) = drain decoder buffer) := by
  fun_induction drain decoder buffer with
  | case1 buffer seen =>
      constructor
      · intro _; rfl
      · intro broken; exact absurd (fun _ => List.not_mem_nil) broken
  | case2 buffer out width seen tail ih =>
      have bound := decoder.item_width buffer out width seen
      -- The longer buffer begins with the same item.
      have front := drain_item decoder (buffer ++ more) out width
        (decoder.item_stable buffer more out width seen)
      rw [List.drop_append_of_le_length bound.2] at front
      constructor
      · intro clean
        have cleanTail : Unbroken tail.1 := (unbroken_cons_item out tail.1).mp clean
        rw [front, ih.1 cleanTail]
        rfl
      · intro broken
        have brokenTail : ¬ Unbroken tail.1 :=
          fun clean => broken ((unbroken_cons_item out tail.1).mpr clean)
        rw [front, ih.2 brokenTail]
  | case3 buffer err seen =>
      constructor
      · intro clean; exact absurd List.mem_cons_self (clean err)
      · intro _
        exact drain_halt decoder (buffer ++ more) err (decoder.halt_stable buffer more err seen)

/-- Feeding chunks observes what draining the whole stream observes, as far as
the first break; without a break the unread rest is the same too. -/
theorem feed_stream (chunks : List (List α)) (buffer : List α)
    (waiting : decoder.inspect buffer = .wait) :
    untilHalt (feed decoder buffer chunks).1 =
        untilHalt (drain decoder (buffer ++ chunks.flatten)).1 ∧
      (Unbroken (drain decoder (buffer ++ chunks.flatten)).1 →
        feed decoder buffer chunks = drain decoder (buffer ++ chunks.flatten)) := by
  -- The buffer between two chunks is what the drain left, which waits.
  induction chunks generalizing buffer with
  | nil => simp [feed, drain_wait decoder buffer waiting]
  | cons chunk rest ih =>
      have next := ih (drain decoder (buffer ++ chunk)).2
        (drain_leaves_waiting decoder (buffer ++ chunk))
      have split := drain_append decoder (buffer ++ chunk) rest.flatten
      rw [List.append_assoc] at split
      by_cases clean : Unbroken (drain decoder (buffer ++ chunk)).1
      · have whole := split.1 clean
        constructor
        · rw [feed, List.flatten_cons, whole, untilHalt_unbroken _ _ clean,
            untilHalt_unbroken _ _ clean, next.1]
        · intro unbroken
          rw [List.flatten_cons, whole] at unbroken ⊢
          rw [feed, next.2 (fun err member => unbroken err (List.mem_append_right _ member))]
      · -- The break is in this chunk: neither side shows what comes after it.
        have whole := split.2 clean
        constructor
        · rw [feed, List.flatten_cons, whole, untilHalt_broken _ _ clean]
        · intro unbroken
          rw [List.flatten_cons, whole] at unbroken
          exact absurd unbroken clean

/-- Two ways of cutting one stream agree up to the first break, and altogether
where there is none. -/
theorem feed_chunking (chunks others : List (List α)) (buffer : List α)
    (waiting : decoder.inspect buffer = .wait) (same : chunks.flatten = others.flatten) :
    untilHalt (feed decoder buffer chunks).1 = untilHalt (feed decoder buffer others).1 ∧
      (Unbroken (feed decoder buffer chunks).1 →
        feed decoder buffer chunks = feed decoder buffer others) := by
  have left := feed_stream decoder chunks buffer waiting
  have right := feed_stream decoder others buffer waiting
  rw [same] at left
  refine ⟨left.1.trans right.1.symm, ?_⟩
  intro clean
  have unbroken : Unbroken (drain decoder (buffer ++ others.flatten)).1 := by
    rwa [← untilHalt_keeps, left.1, untilHalt_keeps] at clean
  rw [left.2 unbroken, right.2 unbroken]

theorem drain_events (property : Event β ε → Prop) (buffer : List α)
    (items : ∀ front out width, decoder.inspect front = .item out width → property (.item out))
    (halts : ∀ front err, decoder.inspect front = .halt err → property (.halt err)) :
    ∀ event ∈ (drain decoder buffer).1, property event := by
  fun_induction drain decoder buffer with
  | case1 buffer seen => simp
  | case2 buffer out width seen tail ih =>
      intro event member
      rcases List.mem_cons.mp member with same | later
      · subst event
        exact items buffer out width seen
      · exact ih event later
  | case3 buffer err seen =>
      intro event member
      rw [List.mem_singleton] at member
      subst event
      exact halts buffer err seen

theorem feed_events (property : Event β ε → Prop) (chunks : List (List α)) (buffer : List α)
    (items : ∀ front out width, decoder.inspect front = .item out width → property (.item out))
    (halts : ∀ front err, decoder.inspect front = .halt err → property (.halt err)) :
    ∀ event ∈ (feed decoder buffer chunks).1, property event := by
  induction chunks generalizing buffer with
  | nil => simp [feed]
  | cons chunk rest ih =>
      intro event member
      rcases List.mem_append.mp member with now | later
      · exact drain_events decoder property _ items halts event now
      · exact ih _ event later
end Drain

/-! Streams made of complete items. A frame is whole when the decoder takes it
for exactly one item; no proper front of it is mistaken for anything. -/
section Whole
variable (decoder : Decoder α β ε)

def Whole (frame : List α) (out : β) : Prop :=
  decoder.inspect frame = .item out frame.length

theorem whole_first (frame more : List α) (out : β) (whole : Whole decoder frame out) :
    decoder.inspect (frame ++ more) = .item out frame.length :=
  decoder.item_stable frame more out frame.length whole

theorem whole_front_waits (front back : List α) (out : β)
    (whole : Whole decoder (front ++ back) out) (proper : back ≠ []) :
    decoder.inspect front = .wait := by
  have positive := List.length_pos_iff.mpr proper
  cases seen : decoder.inspect front with
  | wait => rfl
  | item other width =>
      -- An item here would still be one, and as narrow, in the whole frame.
      have bound := decoder.item_width front other width seen
      have longer := decoder.item_stable front back other width seen
      rw [whole] at longer
      injection longer with _ same
      simp only [List.length_append] at same
      omega
  | halt err =>
      have longer := decoder.halt_stable front back err seen
      rw [whole] at longer
      cases longer

theorem inspect_front (buffer unread frame rest : List α) (out : β)
    (whole : Whole decoder frame out) (aligned : buffer ++ unread = frame ++ rest) :
    decoder.inspect buffer =
      if frame.length ≤ buffer.length then .item out frame.length else .wait := by
  split
  · rename_i long
    have front : frame <+: buffer :=
      List.prefix_of_prefix_length_le ⟨rest, aligned.symm⟩ ⟨unread, rfl⟩ long
    obtain ⟨more, rfl⟩ := front
    exact whole_first decoder frame more out whole
  · rename_i short
    have front : buffer <+: frame :=
      List.prefix_of_prefix_length_le ⟨unread, rfl⟩ ⟨rest, aligned.symm⟩ (by omega)
    obtain ⟨missing, rfl⟩ := front
    apply whole_front_waits decoder buffer missing out whole
    rintro rfl
    simp at short

theorem drain_whole (frames : List (List α × β)) (tail : List α)
    (whole : ∀ frame ∈ frames, Whole decoder frame.1 frame.2)
    (waiting : decoder.inspect tail = .wait) :
    drain decoder ((frames.map Prod.fst).flatten ++ tail) =
      (frames.map fun frame => .item frame.2, tail) := by
  induction frames with
  | nil => exact drain_wait decoder tail waiting
  | cons frame rest ih =>
      have first := whole frame List.mem_cons_self
      have front := whole_first decoder frame.1 ((rest.map Prod.fst).flatten ++ tail) frame.2 first
      have next := ih (fun other member => whole other (List.mem_cons_of_mem frame member))
      rw [List.map_cons, List.flatten_cons, List.append_assoc,
        drain_item decoder _ _ _ front, List.drop_left, next]
      rfl
end Whole

theorem drain_frames (decoder : Decoder α (List α) ε) (frames : List (List α)) (tail : List α)
    (whole : ∀ frame ∈ frames, Whole decoder frame frame)
    (waiting : decoder.inspect tail = .wait) :
    drain decoder (frames.flatten ++ tail) = (frames.map .item, tail) := by
  have pairs := drain_whole decoder (frames.map fun frame => (frame, frame)) tail
    (fun pair member => by
      obtain ⟨frame, inside, rfl⟩ := List.mem_map.mp member
      exact whole frame inside) waiting
  rw [List.map_map, List.map_map, Function.comp_def, Function.comp_def, List.map_id'] at pairs
  exact pairs

/-! The part of a stream of frames that has been read so far. -/

/-- The frames that lie within the first `count` symbols. -/
def arrived : List (List α) → Nat → List (List α)
  | [], _ => []
  | frame :: rest, count =>
      if frame.length ≤ count then frame :: arrived rest (count - frame.length) else []

theorem arrived_sublist (frames : List (List α)) (count : Nat) :
    ∀ frame ∈ arrived frames count, frame ∈ frames := by
  induction frames generalizing count with
  | nil => exact fun frame member => member
  | cons first rest ih =>
      intro frame member
      rw [arrived] at member
      split at member
      · rcases List.mem_cons.mp member with same | later
        · exact same ▸ List.mem_cons_self
        · exact List.mem_cons_of_mem first (ih _ frame later)
      · cases member

/-- What was read is the frames that have arrived and a proper front of the next. -/
theorem arrived_front (frames : List (List α)) (read unread : List α)
    (aligned : read ++ unread = frames.flatten) :
    ∃ cut, read = (arrived frames read.length).flatten ++ cut ∧
      (cut = [] ∨ ∃ missing, missing ≠ [] ∧ cut ++ missing ∈ frames) := by
  induction frames generalizing read with
  | nil =>
      rw [(List.append_eq_nil_iff.mp aligned).1]
      exact ⟨[], rfl, .inl rfl⟩
  | cons first rest ih =>
      rw [List.flatten_cons] at aligned
      rw [arrived]
      by_cases long : first.length ≤ read.length
      · obtain ⟨more, rfl⟩ : first <+: read :=
          List.prefix_of_prefix_length_le ⟨rest.flatten, aligned.symm⟩ ⟨unread, rfl⟩ long
        rw [List.append_assoc] at aligned
        obtain ⟨cut, split, shape⟩ := ih more (List.append_cancel_left aligned)
        refine ⟨cut, ?_, shape.imp_right fun ⟨missing, proper, inside⟩ =>
          ⟨missing, proper, List.mem_cons_of_mem first inside⟩⟩
        rw [if_pos long, List.length_append, Nat.add_sub_cancel_left, List.flatten_cons,
          List.append_assoc, ← split]
      · obtain ⟨missing, whole⟩ : read <+: first :=
          List.prefix_of_prefix_length_le ⟨unread, rfl⟩ ⟨rest.flatten, aligned.symm⟩ (by omega)
        refine ⟨read, by rw [if_neg long]; rfl, .inr ⟨missing, ?_, by simp [whole]⟩⟩
        rintro rfl
        rw [← whole, List.append_nil] at long
        exact long (Nat.le_refl _)

theorem drain_arrived (decoder : Decoder α (List α) ε) (frames : List (List α))
    (whole : ∀ frame ∈ frames, Whole decoder frame frame) (read unread : List α)
    (aligned : read ++ unread = frames.flatten) :
    (drain decoder read).1 = (arrived frames read.length).map .item ∧
      ((drain decoder read).2 = [] ∨
        ∃ missing, missing ≠ [] ∧ (drain decoder read).2 ++ missing ∈ frames) := by
  obtain ⟨cut, split, shape⟩ := arrived_front frames read unread aligned
  have waits : decoder.inspect cut = .wait := by
    rcases shape with rfl | ⟨missing, proper, inside⟩
    · exact decoder.empty_waits
    · exact whole_front_waits decoder cut missing _ (whole _ inside) proper
  have items := drain_frames decoder (arrived frames read.length) cut
    (fun frame inside => whole frame (arrived_sublist frames _ frame inside)) waits
  rw [← split] at items
  rw [items]
  exact ⟨rfl, shape⟩

end OpenMediaTransport.Framing
