import Mathlib.Algebra.Group.Nat.Defs
import Mathlib.Tactic.SplitIfs
import Okl4Kernel.Lib.TransitionSystem

/-!
# Circular buffers

A producer allocates messages in a circular buffer of `libs/circular_buffer`, and a consumer reads
them. Each of them has a pointer of its own, and makes it known to the other one when it likes to.
Where the buffer ends, both of them go on at its start by themselves.

The head of the producer is never at the end of the buffer, but the tail of the consumer may be at
the end as well as at the start. At the start it is only when the consumer has looked for a message
in vain. If that tail is made known, an allocation up to the end of the buffer makes the head equal
to the tail, as if the buffer were empty.
-/

namespace Okl4Kernel.CircularBuffer

open TransitionSystem

/-- A buffer with the handles of its producer and its consumer. `stop` is the field `end`. -/
structure Buffer where
  start : ℕ
  stop : ℕ
  head : ℕ
  tail : ℕ
  allocHead : ℕ
  getTail : ℕ

namespace Buffer

/-- `cb_new_withmem` and `cb_attach`. -/
def cbNew (start size : ℕ) : Buffer := ⟨start, start + size, start, start + size, start, start + size⟩

variable (b : Buffer)

/-- `cb_alloc`. -/
def cbAlloc (size : ℕ) : Buffer × Option ℕ :=
  let newHead := (b.allocHead + size) % 2 ^ 32
  if b.allocHead < b.tail ∧ b.tail ≤ newHead then (b, none)
  else
    let value := if b.stop < newHead then b.start else b.allocHead
    let newHead' := if b.stop < newHead then (b.start + size) % 2 ^ 32 else newHead
    if b.stop < newHead ∧ value = b.tail then (b, none)
    else if value < b.tail ∧ b.tail ≤ newHead' then (b, none)
    else ({ b with allocHead := if newHead' = b.stop then b.start else newHead' }, some value)

/-- `cb_sync_alloc`. -/
def cbSyncAlloc : Buffer := { b with head := b.allocHead }

/-- `cb_undo_alloc`. -/
def cbUndoAlloc : Buffer := { b with allocHead := b.head }

/-- `cb_get`. -/
def cbGet (size : ℕ) : Buffer × Option ℕ :=
  let tail := if b.stop < (b.getTail + size) % 2 ^ 32 ∧ b.head ≠ b.getTail then b.start else b.getTail
  if tail ≤ b.head ∧ b.head < (tail + size) % 2 ^ 32 then ({ b with getTail := tail }, none)
  else ({ b with getTail := (tail + size) % 2 ^ 32 }, some tail)

/-- `cb_sync_get`. -/
def cbSyncGet : Buffer := { b with tail := b.getTail }

end Buffer

/-- A message: where it is, and how long it is. -/
structure Message where
  addr : ℕ
  size : ℕ

/-- A buffer, the messages that were made known and not read, and those that were not made known. -/
structure Channel where
  buffer : Buffer
  unread : List Message
  pending : List Message

/-- A call of the producer or of the consumer. -/
inductive Op
  | alloc (size : ℕ)
  | syncAlloc
  | undoAlloc
  | get (size : ℕ)
  | syncGet

namespace Channel

/-- One call. The consumer asks for the size that the next message has. -/
def step (c : Channel) : Op → Option Channel
  | .alloc size => some { c with
      buffer := (c.buffer.cbAlloc size).1
      pending := c.pending ++ ((c.buffer.cbAlloc size).2.map (⟨·, size⟩)).toList }
  | .syncAlloc => some ⟨c.buffer.cbSyncAlloc, c.unread ++ c.pending, []⟩
  | .undoAlloc => some ⟨c.buffer.cbUndoAlloc, c.unread, []⟩
  | .get size =>
    if ∀ m ∈ c.unread.head?, m.size = size then some { c with
      buffer := (c.buffer.cbGet size).1
      unread := if (c.buffer.cbGet size).2 = none then c.unread else c.unread.tail }
    else none
  | .syncGet => some { c with buffer := c.buffer.cbSyncGet }

/-- A buffer with no messages. -/
def new (start size : ℕ) : Channel := ⟨.cbNew start size, [], []⟩

/-- A size is positive, and no pointer overflows. The known tail is not at the start of the buffer
when something up to its end is allocated. -/
def Allowed (c : Channel) : Op → Prop
  | .alloc size => 0 < size ∧ c.buffer.allocHead + size < 2 ^ 32 ∧
      ¬ (c.buffer.tail = c.buffer.start ∧ c.buffer.allocHead + size = c.buffer.stop)
  | .get size => 0 < size ∧ c.buffer.getTail + size < 2 ^ 32
  | .syncAlloc | .undoAlloc | .syncGet => True

instance (c : Channel) (op : Op) : Decidable (c.Allowed op) := by
  unfold Allowed
  cases op <;> infer_instance

/-- The next message is read where it was allocated, nothing is read if there is no message, and what
is allocated does not overlap with a message that was not read or not made known. -/
structure Lossless (c : Channel) : Prop where
  get : ∀ size, c.Allowed (.get size) → (∀ m ∈ c.unread.head?, m.size = size) →
    (c.buffer.cbGet size).2 = c.unread.head?.map Message.addr
  alloc : ∀ size addr, c.Allowed (.alloc size) → (c.buffer.cbAlloc size).2 = some addr →
    c.buffer.start ≤ addr ∧ addr + size ≤ c.buffer.stop ∧
      ∀ m ∈ c.unread ++ c.pending, addr + size ≤ m.addr ∨ m.addr + m.size ≤ addr

end Channel

/-! ## Ways through the buffer -/

/-- The messages lie one behind the other, from one position to another one. The flags tell whether
the way has come around the end of the buffer before. -/
inductive Walk (start stop : ℕ) : ℕ → Bool → List Message → ℕ → Bool → Prop
  | nil {t w} : Walk start stop t w [] t w
  | straight {t w n ms t' w'} (hpos : 0 < n) (hfits : t + n ≤ stop)
      (rest : Walk start stop (t + n) w ms t' w') : Walk start stop t w (⟨t, n⟩ :: ms) t' w'
  | around {t n ms t' w'} (hpos : 0 < n) (hexceeds : stop < t + n) (hfits : start + n ≤ stop)
      (rest : Walk start stop (start + n) true ms t' w') :
      Walk start stop t false (⟨start, n⟩ :: ms) t' w'

variable {start stop t t' t'' : ℕ} {w w' w'' : Bool} {ms ms' : List Message}

namespace Walk

section

variable (h : Walk start stop t w ms t' w')
include h

lemma append (h' : Walk start stop t' w' ms' t'' w'') :
    Walk start stop t w (ms ++ ms') t'' w'' := by
  induction h with
  | nil => exact h'
  | straight hpos hfits _ ih => exact .straight hpos hfits (ih h')
  | around hpos hexceeds hfits _ ih => exact .around hpos hexceeds hfits (ih h')

/-- A way does not go back, and stays in the buffer. -/
lemma le (ht : t ≤ stop) : t' ≤ stop ∧ (w = w' ∧ t ≤ t' ∨ w = false ∧ w' = true ∧ start ≤ t') := by
  induction h with
  | nil => exact ⟨ht, .inl ⟨rfl, Nat.le_refl _⟩⟩
  | straight hpos hfits _ ih =>
    obtain ⟨hle, ⟨rfl, hforth⟩ | hwrap⟩ := ih hfits
    · exact ⟨hle, .inl ⟨rfl, by omega⟩⟩
    · exact ⟨hle, .inr hwrap⟩
  | around hpos hexceeds hfits _ ih =>
    obtain ⟨hle, ⟨rfl, hforth⟩ | ⟨hfalse, -⟩⟩ := ih hfits
    · exact ⟨hle, .inr ⟨rfl, rfl, by omega⟩⟩
    · cases hfalse

lemma mem (ht : t ≤ stop) {m : Message} (hm : m ∈ ms) : w = w' ∧ t ≤ m.addr ∧ m.addr + m.size ≤ t' ∨
      w = false ∧ w' = true ∧ (t ≤ m.addr ∨ m.addr + m.size ≤ t') := by
  induction h with
  | nil => cases hm
  | straight hpos hfits rest ih =>
    rcases List.mem_cons.1 hm with rfl | hm
    · obtain ⟨-, ⟨rfl, hforth⟩ | ⟨rfl, rfl, -⟩⟩ := rest.le hfits
      · exact .inl ⟨rfl, Nat.le_refl _, hforth⟩
      · exact .inr ⟨rfl, rfl, .inl (Nat.le_refl _)⟩
    · rcases ih hfits hm with ⟨rfl, hlow, hhigh⟩ | ⟨rfl, rfl, hlow | hhigh⟩
      · exact .inl ⟨rfl, by omega, hhigh⟩
      · exact .inr ⟨rfl, rfl, .inl (by omega)⟩
      · exact .inr ⟨rfl, rfl, .inr hhigh⟩
  | around hpos hexceeds hfits rest ih =>
    rcases List.mem_cons.1 hm with rfl | hm
    · obtain ⟨-, ⟨rfl, hforth⟩ | ⟨hfalse, -⟩⟩ := rest.le hfits
      · exact .inr ⟨rfl, rfl, .inr hforth⟩
      · cases hfalse
    · rcases ih hfits hm with ⟨rfl, hlow, hhigh⟩ | ⟨hfalse, -⟩
      · exact .inr ⟨rfl, rfl, .inr hhigh⟩
      · cases hfalse

/-- A way that has come around already may forget about it. -/
lemma forget (hw : w = true) : w' = true ∧ Walk start stop t false ms t' false := by
  induction h with
  | nil => exact ⟨hw, .nil⟩
  | straight hpos hfits _ ih => exact ⟨(ih hw).1, .straight hpos hfits (ih hw).2⟩
  | around => cases hw

end

/-- A way from the end of the buffer is one from its start. -/
lemma restart (h : Walk start stop stop false ms t' w') :
    ms = [] ∧ t' = stop ∧ w' = false ∨ Walk start stop start true ms t' w' := by
  cases h with
  | nil => exact .inl ⟨rfl, rfl, rfl⟩
  | straight hpos hfits _ => omega
  | around hpos _ hfits rest => exact .inr (.straight hpos hfits rest)

end Walk

/-! ## The order of the pointers -/

/-- The head for a position: the end of the buffer is its start. -/
def Buffer.wrapped (b : Buffer) (t : ℕ) : ℕ := if t = b.stop then b.start else t

/-- What `cb_alloc` can do: it fails, it goes on at the start, or it goes straight on. -/
lemma Buffer.cbAlloc_cases {b : Buffer} {n : ℕ} (hstart : b.start ≤ b.allocHead)
    (hword : b.allocHead + n < 2 ^ 32) :
    b.cbAlloc n = (b, none) ∨ ¬ (b.allocHead < b.tail ∧ b.tail ≤ b.allocHead + n) ∧
      (b.stop < b.allocHead + n ∧ b.start ≠ b.tail ∧ ¬ (b.start < b.tail ∧ b.tail ≤ b.start + n) ∧
          b.cbAlloc n = ({ b with allocHead := b.wrapped (b.start + n) }, some b.start) ∨
        b.allocHead + n ≤ b.stop ∧
          b.cbAlloc n = ({ b with allocHead := b.wrapped (b.allocHead + n) }, some b.allocHead)) := by
  unfold cbAlloc
  dsimp only
  split_ifs <;> grind [wrapped]

/-- What `cb_get` does at the position `tail` at which it looks for a message. -/
lemma Buffer.cbGet_eq {b : Buffer} {n tail : ℕ} (hword : b.getTail + n < 2 ^ 32)
    (hword' : tail + n < 2 ^ 32)
    (htail : tail = if b.stop < b.getTail + n ∧ b.head ≠ b.getTail then b.start else b.getTail) :
    b.cbGet n = if tail ≤ b.head ∧ b.head < tail + n then ({ b with getTail := tail }, none)
      else ({ b with getTail := tail + n }, some tail) := by
  unfold cbGet
  rw [Nat.mod_eq_of_lt hword]
  dsimp only
  rw [← htail, Nat.mod_eq_of_lt hword']

namespace Channel

variable {c c' : Channel} {n : ℕ}

/-- Behind the known tail comes that of the consumer, then the messages up to the position `h` of the
known head, and then those up to the position `p` of the head of the producer. Behind that head,
nothing is in use up to the known tail. -/
structure Layout (c : Channel) (w₁ : Bool) (h : ℕ) (w₂ : Bool) (p : ℕ) (w₃ : Bool) : Prop where
  known : Walk c.buffer.start c.buffer.stop c.buffer.getTail w₁ c.unread h w₂
  fresh : Walk c.buffer.start c.buffer.stop h w₂ c.pending p w₃
  head : c.buffer.head = c.buffer.wrapped h
  allocHead : c.buffer.allocHead = c.buffer.wrapped p
  bounds : c.buffer.start ≤ c.buffer.tail ∧ c.buffer.tail ≤ c.buffer.stop ∧ c.buffer.stop < 2 ^ 32
  getTail : (w₁ = false → c.buffer.tail ≤ c.buffer.getTail ∧ c.buffer.getTail ≤ c.buffer.stop) ∧
    (w₁ = true → c.buffer.start ≤ c.buffer.getTail ∧ c.buffer.getTail < c.buffer.tail)
  last : (w₃ = false → c.buffer.tail = c.buffer.start → p < c.buffer.stop ∨
    c.buffer.start = c.buffer.stop) ∧ (w₃ = true → p < c.buffer.tail)

/-- There is such an order. -/
def Tracked (c : Channel) : Prop := ∃ w₁ h w₂ p w₃, c.Layout w₁ h w₂ p w₃

variable {w₁ w₂ w₃ : Bool} {h p : ℕ}

section

variable (hl : c.Layout w₁ h w₂ p w₃)
include hl

lemma Layout.getTail_mem :
    c.buffer.start ≤ c.buffer.getTail ∧ c.buffer.getTail ≤ c.buffer.stop := by
  have hbounds := hl.bounds
  have hget := hl.getTail
  grind

lemma Layout.position_mem :
    h ≤ c.buffer.stop ∧ c.buffer.start ≤ h ∧ p ≤ c.buffer.stop ∧ c.buffer.start ≤ p := by
  have hget := hl.getTail_mem
  have hknown := hl.known.le hget.2
  have hfresh := hl.fresh.le hknown.1
  grind

/-- What is allocated lies behind the head of the producer. -/
lemma Layout.cbAlloc (hok : c.Allowed (.alloc n)) :
    c.buffer.cbAlloc n = (c.buffer, none) ∨ ∃ addr p' w',
      c.buffer.cbAlloc n = ({ c.buffer with allocHead := c.buffer.wrapped p' }, some addr) ∧
      Walk c.buffer.start c.buffer.stop p w₃ [⟨addr, n⟩] p' w' ∧
      (w' = false → c.buffer.tail = c.buffer.start → p' < c.buffer.stop ∨
        c.buffer.start = c.buffer.stop) ∧ (w' = true → p' < c.buffer.tail) := by
  obtain ⟨hpos, hword, hfull⟩ := hok
  obtain ⟨hstart, hstop, hbound⟩ := hl.bounds
  obtain ⟨-, -, hp, hstart'⟩ := hl.position_mem
  have hhead := hl.allocHead
  have hlast := hl.last
  unfold Buffer.wrapped at hhead
  rcases Buffer.cbAlloc_cases (by grind) hword with
    hnone | ⟨hbefore, ⟨hexceeds, htail, hbelow, hsome⟩ | ⟨hfits, hsome⟩⟩
  · exact .inl hnone
  · -- The end of the buffer is too near, so the way comes around now.
    obtain ⟨rfl, hlt⟩ : w₃ = false ∧ c.buffer.stop < p + n := by grind
    exact .inr ⟨_, _, true, hsome, .around hpos hlt (by omega) .nil, nofun, fun _ => by omega⟩
  · by_cases hend : p = c.buffer.stop
    · -- The way had come to the end of the buffer before.
      rw [if_pos hend] at hhead
      obtain rfl : w₃ = false := by grind
      rw [hhead] at hsome hfits
      exact .inr ⟨_, _, true, hsome, .around hpos (by omega) hfits .nil, nofun, fun _ => by grind⟩
    · rw [if_neg hend] at hhead
      rw [hhead] at hsome hfits
      exact .inr ⟨_, _, w₃, hsome, .straight hpos hfits .nil, by grind, by grind⟩

/-- What is allocated does not overlap with the messages in the buffer. -/
lemma Layout.separate {addr p' : ℕ}
    (hwalk : Walk c.buffer.start c.buffer.stop p w₃ [⟨addr, n⟩] p' w')
    (hlast : w' = true → p' < c.buffer.tail) : c.buffer.start ≤ addr ∧ addr + n ≤ c.buffer.stop ∧
      ∀ m ∈ c.unread ++ c.pending, addr + n ≤ m.addr ∨ m.addr + m.size ≤ addr := by
  obtain ⟨-, -, hp, hstart⟩ := hl.position_mem
  have hmem : ∀ m ∈ c.unread ++ c.pending, _ := fun m hm =>
    (hl.known.append hl.fresh).mem hl.getTail_mem.2 hm
  cases hwalk with
  | straight hpos hfits rest =>
    cases rest
    refine ⟨hstart, hfits, fun m hm => ?_⟩
    rcases hmem m hm with ⟨-, -, hhigh⟩ | ⟨rfl, rfl, hlow | hhigh⟩
    · exact .inr hhigh
    · -- The message lies behind the tail, and the head has come around.
      have hbelow := hlast rfl
      have htail := hl.getTail.1 rfl
      exact .inl (by omega)
    · exact .inr hhigh
  | around hpos hexceeds hfits rest =>
    cases rest
    refine ⟨Nat.le_refl _, hfits, fun m hm => ?_⟩
    rcases hmem m hm with ⟨rfl, hlow, -⟩ | ⟨-, hfalse, -⟩
    · have hbelow := hlast rfl
      have htail := hl.getTail.1 rfl
      exact .inl (by omega)
    · cases hfalse

/-- If there is no message, nothing is read, and the tail of the consumer goes from the end of the
buffer to its start. -/
lemma Layout.cbGet_nil (hempty : c.unread = [])
    (hok : c.Allowed (.get n)) : (c.buffer.cbGet n).2 = none ∧
      Tracked { c with buffer := (c.buffer.cbGet n).1 } := by
  obtain ⟨hpos, hword⟩ := hok
  obtain ⟨-, -, hp, hstart⟩ := hl.position_mem
  have hknown := hl.known
  have hhead := hl.head
  have hbounds := hl.bounds
  rw [hempty] at hknown
  cases hknown
  by_cases hsame : c.buffer.head = c.buffer.getTail
  · rw [Buffer.cbGet_eq hword hword (if_neg fun hwrap => hwrap.2 hsame).symm, if_pos (by omega)]
    exact ⟨rfl, _, _, _, _, _, hl⟩
  -- The consumer is at the end of the buffer, and the head is at the start.
  unfold Buffer.wrapped at hhead
  split_ifs at hhead with hstop
  · have hne : c.buffer.start ≠ c.buffer.stop := by omega
    have hwrapped : c.buffer.head = c.buffer.wrapped c.buffer.start := hhead.trans (if_neg hne).symm
    rw [Buffer.cbGet_eq hword (by omega) (if_pos ⟨by omega, hsame⟩).symm, if_pos (by omega)]
    obtain rfl : w₁ = false := by
      have htail := hl.getTail
      grind
    have hfresh := hl.fresh
    rw [hstop] at hfresh
    rcases hfresh.restart with ⟨hpending, rfl, rfl⟩ | hfresh
    · -- Nothing was allocated either, so the head is at the start as well.
      have hlast := hl.last.1 rfl
      have hlt : c.buffer.start < c.buffer.tail := by omega
      exact ⟨rfl, true, c.buffer.start, true, c.buffer.start, true, hempty ▸ .nil, hpending ▸ .nil,
        hwrapped, hl.allocHead.trans ((if_pos rfl).trans (if_neg hne).symm), hbounds,
        ⟨nofun, fun _ => ⟨Nat.le_refl _, hlt⟩⟩, nofun, fun _ => hlt⟩
    · obtain rfl := (hfresh.forget rfl).1
      have hlast := hl.last.2 rfl
      exact ⟨rfl, true, c.buffer.start, true, p, true, hempty ▸ .nil, hfresh, hwrapped,
        hl.allocHead, hbounds, ⟨nofun, fun _ => ⟨Nat.le_refl _, Nat.lt_of_le_of_lt hstart hlast⟩⟩,
        hl.last⟩
  · exact absurd hhead hsame

lemma Layout.cbGet_cons {m : Message}
    (hunread : c.unread = m :: ms) (hok : c.Allowed (.get m.size)) :
    (c.buffer.cbGet m.size).2 = some m.addr ∧
      Tracked { c with buffer := (c.buffer.cbGet m.size).1, unread := ms } := by
  obtain ⟨hpos, hword⟩ := hok
  obtain ⟨hget, hget'⟩ := hl.getTail_mem
  obtain ⟨hh, hstart, hp, hstart'⟩ := hl.position_mem
  have hknown := hl.known
  have hhead := hl.head
  have hbounds := hl.bounds
  rw [hunread] at hknown
  unfold Buffer.wrapped at hhead
  cases hknown with
  | @straight _ _ n _ _ _ _ hfits rest =>
    dsimp only at hpos hword ⊢
    have horder := rest.le hfits
    have horder' := hl.fresh.le hh
    have htail := hl.getTail
    have hlast := hl.last
    have hnot : ¬ (c.buffer.getTail ≤ c.buffer.head ∧ c.buffer.head < c.buffer.getTail + n) := by
      grind
    have htrue : w₁ = true → c.buffer.getTail + n < c.buffer.tail := by grind
    rw [Buffer.cbGet_eq hword hword (if_neg fun hwrap => by omega).symm, if_neg hnot]
    refine ⟨rfl, w₁, h, w₂, p, w₃, rest, hl.fresh, hl.head, hl.allocHead, hbounds, ⟨?_, ?_⟩, hl.last⟩
    · exact fun hw => ⟨Nat.le_add_right_of_le (hl.getTail.1 hw).1, hfits⟩
    · exact fun hw => ⟨Nat.le_add_right_of_le hget, htrue hw⟩
  | @around _ n _ _ _ _ hexceeds hfits rest =>
    dsimp only at hpos hword ⊢
    obtain rfl := (rest.forget rfl).1
    obtain rfl := (hl.fresh.forget rfl).1
    have htail := hl.getTail.1 rfl
    have hlast := hl.last.2 rfl
    have horder := rest.le hfits
    have horder' := hl.fresh.le hh
    have hne : c.buffer.head = h ∧ h ≠ c.buffer.getTail ∧ c.buffer.start + n ≤ h ∧ h ≤ p := by grind
    rw [Buffer.cbGet_eq hword (by omega) (if_pos ⟨hexceeds, by omega⟩).symm, if_neg (by omega)]
    refine ⟨rfl, true, h, true, p, true, rest, hl.fresh, hl.head, hl.allocHead, hbounds,
      ⟨nofun, fun _ => ⟨Nat.le_add_right _ _, ?_⟩⟩, hl.last⟩
    exact Nat.lt_of_le_of_lt (Nat.le_trans hne.2.2.1 hne.2.2.2) hlast

lemma Layout.cbSyncGet : Tracked { c with buffer := c.buffer.cbSyncGet } := by
  obtain ⟨hget, hget'⟩ := hl.getTail_mem
  have hbounds := hl.bounds
  cases w₁ with
  | false =>
    have htail := hl.getTail.1 rfl
    refine ⟨false, h, w₂, p, w₃, hl.known, hl.fresh, hl.head, hl.allocHead, ⟨hget, hget', hbounds.2.2⟩,
      ⟨fun _ => ⟨Nat.le_refl _, hget'⟩, nofun⟩, fun hw hstart => hl.last.1 hw ?_, fun hw => ?_⟩
    · have hstart' : c.buffer.getTail = c.buffer.start := hstart
      omega
    · exact Nat.lt_of_lt_of_le (hl.last.2 hw) htail.1
  | true =>
    -- What has come around the end lies straight before the consumer now.
    obtain ⟨rfl, hknown⟩ := hl.known.forget rfl
    obtain ⟨rfl, hfresh⟩ := hl.fresh.forget rfl
    exact ⟨false, h, false, p, false, hknown, hfresh, hl.head, hl.allocHead,
      ⟨hget, hget', hbounds.2.2⟩, ⟨fun _ => ⟨Nat.le_refl _, hget'⟩, nofun⟩,
      fun _ _ => .inl (Nat.lt_of_lt_of_le (hl.last.2 rfl) hbounds.2.1), nofun⟩

end

lemma Tracked.step {op : Op} (hc : c.Tracked) (hok : c.Allowed op) (hstep : c.step op = some c') :
    c'.Tracked := by
  obtain ⟨w₁, h, w₂, p, w₃, hl⟩ := hc
  cases op with
  | alloc n =>
    cases hstep
    rcases hl.cbAlloc hok with hnone | ⟨addr, p', w', hsome, hwalk, hlast⟩
    · rw [hnone]
      exact ⟨w₁, h, w₂, p, w₃, by simpa using hl⟩
    · rw [hsome]
      exact ⟨w₁, h, w₂, p', w', hl.known, hl.fresh.append hwalk, hl.head, rfl, hl.bounds, hl.getTail,
        hlast⟩
  | syncAlloc =>
    cases hstep
    exact ⟨w₁, p, w₃, p, w₃, hl.known.append hl.fresh, .nil, hl.allocHead, hl.allocHead, hl.bounds,
      hl.getTail, hl.last⟩
  | undoAlloc =>
    cases hstep
    obtain ⟨hh, -, -, hstart⟩ := hl.position_mem
    refine ⟨w₁, h, w₂, h, w₂, hl.known, .nil, hl.head, hl.head, hl.bounds, hl.getTail, ?_⟩
    obtain ⟨-, ⟨rfl, hforth⟩ | ⟨rfl, rfl, -⟩⟩ := hl.fresh.le hh
    · refine ⟨fun hw htail => ?_, fun hw => Nat.lt_of_le_of_lt hforth (hl.last.2 hw)⟩
      exact (hl.last.1 hw htail).imp_left (Nat.lt_of_le_of_lt hforth)
    · refine ⟨fun _ htail => ?_, nofun⟩
      have htail' : c.buffer.tail = c.buffer.start := htail
      have hlast := hl.last.2 rfl
      omega
  | get n =>
    obtain ⟨hsize, hsome⟩ := Option.ite_none_right_eq_some.1 hstep
    cases hsome
    rcases hunread : c.unread with _ | ⟨m, ms⟩
    · obtain ⟨-, htracked⟩ := hl.cbGet_nil hunread hok
      rw [List.tail_nil, ite_self, ← hunread]
      exact htracked
    · obtain rfl := hsize m (by rw [hunread]; rfl)
      obtain ⟨hsome, htracked⟩ := hl.cbGet_cons hunread hok
      rw [hsome, if_neg (Option.some_ne_none _)]
      exact htracked
  | syncGet =>
    cases hstep
    exact hl.cbSyncGet

lemma Tracked.lossless (hc : c.Tracked) : c.Lossless where
  get n hok hsize := by
    obtain ⟨w₁, h, w₂, p, w₃, hl⟩ := hc
    rcases hunread : c.unread with _ | ⟨m, ms⟩
    · exact (hl.cbGet_nil hunread hok).1
    · obtain rfl := hsize m (by rw [hunread]; rfl)
      exact (hl.cbGet_cons hunread hok).1
  alloc n addr hok hsome := by
    obtain ⟨w₁, h, w₂, p, w₃, hl⟩ := hc
    rcases hl.cbAlloc hok with hnone | ⟨addr', p', w', hsome', hwalk, hlast⟩
    · rw [hnone] at hsome
      cases hsome
    · rw [hsome'] at hsome
      cases hsome
      exact hl.separate hwalk hlast.2

/-- If all calls are allowed, no message is lost, whatever the order of the calls is. -/
theorem lossless_of_allowed (start size : ℕ) (hword : start + size < 2 ^ 32) (ops : List Op)
    (hok : RunMeets step Allowed (new start size) ops) {c : Channel}
    (hrun : run step (new start size) ops = some c) : c.Lossless := by
  have htracked : (new start size).Tracked :=
    ⟨false, start + size, false, start + size, false, .nil, .nil, (if_pos rfl).symm, (if_pos rfl).symm,
      ⟨Nat.le_add_right _ _, Nat.le_refl _, hword⟩, ⟨fun _ => ⟨Nat.le_refl _, Nat.le_refl _⟩, nofun⟩,
      fun _ htail => .inr htail.symm, nofun⟩
  exact (hok.invariant (fun _ _ _ hc hop hstep => hc.step hop hstep) htracked hrun).lossless

/-- A message is sent and read. -/
theorem lossless_one_message :
    RunMeets step Allowed (new 4096 16) [.alloc 8, .syncAlloc, .get 8, .syncGet] ∧
      ∀ c, run step (new 4096 16) [.alloc 8, .syncAlloc, .get 8, .syncGet] = some c → c.Lossless :=
  ⟨by decide, fun _ => lossless_of_allowed 4096 16 (by decide) _ (by decide)⟩

/-- The consumer looks for a message in vain and makes its tail known. Then a message that fills the
buffer is lost. -/
theorem lossless_fails_when_filled :
    (run step (new 4096 4) [.get 4, .syncGet, .alloc 4, .syncAlloc]).map
      (fun c => (c.unread.map Message.addr, (c.buffer.cbGet 4).2)) = some ([4096], none) := by
  decide

end Channel

end Okl4Kernel.CircularBuffer
