/-
A log of the pieces handed to a device.

A writer that goes on after a fault hands a device pieces of which any may fail.  Each of them is an
attempt: the piece, and how many of its bytes the device has kept.  A piece that was written is kept
whole, and of one that was not a proper front is kept, which may be empty.

* `Handed` — some attempts lead from one state of a device to another;
* `Handed.contents_eq` — the device then holds what was kept of each of them, in order;
* `AllOrNothing` — a device that never takes a part of an offer;
* `Handed.contents_eq_of_allOrNothing` — such a device holds the whole pieces and nothing else.
-/
import SwapCapture.Proofs.Device.Room

namespace SwapCapture

/-- A `piece` handed to a device, and as `kept` the number of bytes from its front that the device
has kept. -/
structure Attempt where
  piece : Bytes
  kept : Nat
deriving DecidableEq, Repr

namespace Attempt

def whole (piece : Bytes) : Attempt := ⟨piece, piece.length⟩

/-- What the device has kept. -/
def front (a : Attempt) : Bytes := a.piece.take a.kept

def isWhole (a : Attempt) : Bool := a.kept = a.piece.length

@[simp] theorem front_whole (piece : Bytes) : (whole piece).front = piece := List.take_length

@[simp] theorem isWhole_whole (piece : Bytes) : (whole piece).isWhole = true :=
  decide_eq_true rfl

theorem isWhole_eq_false {piece : Bytes} {n : Nat} (h : n < piece.length) :
    (⟨piece, n⟩ : Attempt).isWhole = false :=
  decide_eq_false (Nat.ne_of_lt h)

theorem front_of_isWhole {a : Attempt} (h : a.isWhole = true) : a.front = a.piece := by
  have kept_eq : a.kept = a.piece.length := of_decide_eq_true h
  rw [front, kept_eq, List.take_length]

end Attempt

/-- The bytes that the attempts of `log` have left in a device. -/
def keptBytes (log : List Attempt) : Bytes := (log.map Attempt.front).flatten

/-- The pieces of `log` that were written, one behind the other. -/
def wholePieces (log : List Attempt) : Bytes :=
  ((log.filter Attempt.isWhole).map Attempt.piece).flatten

@[simp] theorem wholePieces_nil : wholePieces [] = [] := rfl

theorem wholePieces_append (log more : List Attempt) :
    wholePieces (log ++ more) = wholePieces log ++ wholePieces more := by
  rw [wholePieces, List.filter_append, List.map_append, List.flatten_append]
  rfl

theorem wholePieces_cons_whole (piece : Bytes) (log : List Attempt) :
    wholePieces (.whole piece :: log) = piece ++ wholePieces log := by
  rw [wholePieces, List.filter_cons_of_pos (Attempt.isWhole_whole piece), List.map_cons,
    List.flatten_cons]
  rfl

theorem wholePieces_cons_torn {piece : Bytes} {n : Nat} (h : n < piece.length)
    (log : List Attempt) : wholePieces (⟨piece, n⟩ :: log) = wholePieces log := by
  have torn : ¬(⟨piece, n⟩ : Attempt).isWhole = true := by
    rw [Attempt.isWhole_eq_false h]
    exact Bool.false_ne_true
  rw [wholePieces, List.filter_cons_of_neg torn]
  rfl

/-- The whole pieces are no more than what was kept, and they are all of it just if nothing was kept
of any other piece. -/
theorem length_wholePieces (log : List Attempt) :
    (wholePieces log).length ≤ (keptBytes log).length ∧
      ((wholePieces log).length = (keptBytes log).length ↔
        ∀ a ∈ log, a.isWhole = true ∨ a.front = []) := by
  induction log with
  | nil => simp [wholePieces, keptBytes]
  | cons a log ih =>
    obtain ⟨le, eq_iff⟩ := ih
    have kept_cons : (keptBytes (a :: log)).length = a.front.length + (keptBytes log).length := by
      rw [keptBytes, List.map_cons, List.flatten_cons, List.length_append]
      rfl
    rw [kept_cons, List.forall_mem_cons, ← eq_iff]
    cases whole : a.isWhole with
    -- a whole piece counts on both sides
    | true =>
      have whole_cons : (wholePieces (a :: log)).length
          = a.front.length + (wholePieces log).length := by
        rw [wholePieces, List.filter_cons_of_pos whole, List.map_cons, List.flatten_cons,
          List.length_append, Attempt.front_of_isWhole whole]
        rfl
      rw [whole_cons]
      simp only [true_or, true_and]
      omega
    -- a torn piece counts only by what was kept of it
    | false =>
      have whole_cons : wholePieces (a :: log) = wholePieces log := by
        rw [wholePieces, List.filter_cons_of_neg (by rw [whole]; exact Bool.false_ne_true)]
        rfl
      rw [whole_cons, ← List.length_eq_zero_iff (l := a.front)]
      simp only [Bool.false_eq_true, false_or]
      omega

namespace Device

variable {δ : Type} [Device δ]

/-! ### Attempts one after the other -/

/-- Some pieces handed to a device one after the other, and the device behind all of them. -/
inductive Handed : δ → List Attempt → δ → Prop where
  | none (device : δ) : Handed device [] device
  | written {device next last : δ} {piece : Bytes} {log : List Attempt} :
      writeAll device piece = (.ok (), next) → Handed next log last →
      Handed device (.whole piece :: log) last
  | torn {device next last : δ} {piece : Bytes} {log : List Attempt} {fault : DeviceFault}
      {n : Nat} :
      writeAll device piece = (.error fault, next) → n < piece.length →
      contents next = contents device ++ piece.take n → Handed next log last →
      Handed device (⟨piece, n⟩ :: log) last

/-- A piece that could not be written is an attempt of which a proper front was kept. -/
theorem exists_handed_torn {device next last : δ} {piece : Bytes} {fault : DeviceFault}
    {log : List Attempt} (h : writeAll device piece = (.error fault, next))
    (others : Handed next log last) :
    ∃ n < piece.length, Handed device (⟨piece, n⟩ :: log) last := by
  obtain ⟨n, short, held⟩ := contents_writeAll_error h
  exact ⟨n, short, .torn h short held others⟩

theorem Handed.append {device middle last : δ} {log more : List Attempt}
    (first : Handed device log middle) (others : Handed middle more last) :
    Handed device (log ++ more) last := by
  induction first with
  | none => exact others
  | written written _ ih => exact .written written (ih others)
  | torn torn short held _ ih => exact .torn torn short held (ih others)

theorem Handed.contents_eq {device last : δ} {log : List Attempt} (h : Handed device log last) :
    contents last = contents device ++ keptBytes log := by
  induction h with
  | none device => rw [keptBytes, List.map_nil, List.flatten_nil, List.append_nil]
  | written first _ ih =>
    rw [ih, contents_writeAll_ok first, List.append_assoc, keptBytes, keptBytes, List.map_cons,
      List.flatten_cons, Attempt.front_whole]
  | torn _ _ held _ ih =>
    rw [ih, held, List.append_assoc, keptBytes, keptBytes, List.map_cons, List.flatten_cons]
    rfl

/-! ### Devices that take no part of an offer -/

theorem reaches_writeAll (device : δ) (bytes : Bytes) :
    Reaches device (writeAll device bytes).2 := by
  fun_induction writeAll device bytes with
  | case1 device => exact .refl
  | case2 device bytes nonempty fault next eq =>
    have reached : Reaches device (Device.write device bytes).2 := .write bytes .refl
    rwa [eq] at reached
  | case3 device bytes nonempty next eq =>
    have reached : Reaches device (Device.write device bytes).2 := .write bytes .refl
    rwa [eq] at reached
  | case4 device bytes nonempty n next eq ih =>
    have reached : Reaches device (Device.write device bytes).2 := .write bytes .refl
    rw [eq] at reached
    exact reached.trans ih

/-- Whatever has been written to it, `device` takes all of an offer or nothing. -/
def AllOrNothing (device : δ) : Prop :=
  ∀ {later : δ}, Reaches device later → ∀ bytes : Bytes,
    taken (Device.write later bytes).1 = 0 ∨ taken (Device.write later bytes).1 = bytes.length

theorem AllOrNothing.after {device later : δ} (h : AllOrNothing device)
    (reached : Reaches device later) : AllOrNothing later :=
  fun further => h (reached.trans further)

/-- A piece that such a device has not taken whole has left nothing in it. -/
theorem contents_eq_of_torn {device next : δ} {piece : Bytes} {fault : DeviceFault}
    (h : AllOrNothing device) (torn : writeAll device piece = (.error fault, next)) :
    contents next = contents device := by
  rw [writeAll] at torn
  split at torn
  · cases torn
  have law := contents_write device piece
  have all := h .refl piece
  rcases offered : Device.write device piece with ⟨fault' | n, middle⟩
  · rw [offered] at law torn
    cases torn
    simpa [taken] using law
  · rw [offered] at law all torn
    rcases n with _ | n
    · cases torn
      simpa [taken] using law
    · -- the first offer has taken all of the piece, so nothing is left to fail
      have all : n + 1 = piece.length := all.resolve_left (Nat.succ_ne_zero n)
      simp only [all, List.drop_length] at torn
      rw [writeAll] at torn
      cases torn

/-- A device that is `AllOrNothing` holds the whole pieces and nothing else. -/
theorem Handed.contents_eq_of_allOrNothing {device last : δ} {log : List Attempt}
    (h : Handed device log last) (all : AllOrNothing device) :
    contents last = contents device ++ wholePieces log := by
  induction h with
  | none device => rw [wholePieces_nil, List.append_nil]
  | @written device next last piece log first _ ih =>
    have reached := reaches_writeAll device piece
    rw [first] at reached
    rw [ih (all.after reached), contents_writeAll_ok first, wholePieces_cons_whole,
      List.append_assoc]
  | @torn device next last piece log fault n first short held _ ih =>
    have reached := reaches_writeAll device piece
    rw [first] at reached
    rw [ih (all.after reached), contents_eq_of_torn all first, wholePieces_cons_torn short]

end Device

namespace Bounded

open Device

/-- A `Bounded` device without chunks takes no part of an offer. -/
theorem allOrNothing_of_whole {device : Bounded} (whole : device.chunk = none) :
    AllOrNothing device := by
  intro later reached bytes
  have alike := Alike.of_reaches reached
  cases room : later.hasRoom (later.portion bytes).length with
  | true =>
    rw [write_of_room room, portion_of_whole (by rwa [alike.chunk_eq])]
    exact .inr rfl
  | false =>
    rw [write_of_full room]
    exact .inl rfl

end Bounded

end SwapCapture
