/-
The traffic of a plan, without a device.

A run reads one stream: for each index in order the swap, and then the identification of its frame
if identifications are random.  Which frames a run writes is settled by these draws alone:

* `Plan.announcements` — the swaps of a run and the identifications of their frames;
* `Plan.announcements_at` — the one at `i` has the class and the nonce of `i`;
* `Plan.frames` — their frames, each of 90 bytes;
* `Plan.run_eq` — carrying out a plan is writing the capture of these frames, on any device.
-/
import SwapCapture.Plan.Run
import SwapCapture.Proofs.Net.Layout
import SwapCapture.Proofs.Pcap.Writing
import SwapCapture.Proofs.Swap.Membership

namespace SwapCapture

/-- A swap and the identification of the frame that announces it. -/
structure Announcement where
  kind : SwapClass
  intent : Intent
  identification : UInt16

namespace Plan

/-! ### The draws of a run -/

/-- The identification at `index`.  Only a random one is drawn. -/
def identify (policy : IdPolicy) (index : Nat) (source : IntentSource) : UInt16 × IntentSource :=
  match policy with
  | .random => source.draw (UInt16.ofNat <$> Uniform.narrow 1 65535)
  | .sequential => (.ofNat (index % 65535 + 1), source)

/-- The announcement at `index`: its swap is drawn first. -/
def announceAt (policy : IdPolicy) (index : Nat) (source : IntentSource) :
    Announcement × IntentSource :=
  let ((kind, intent), drawn) := source.intent (.ofNat index)
  let (identification, later) := identify policy index drawn
  (⟨kind, intent, identification⟩, later)

/-- The announcements of the given number of swaps from `index` on. -/
def announce (policy : IdPolicy) (index : Nat) (source : IntentSource) : Nat → List Announcement
  | 0 => []
  | n + 1 =>
    let (a, later) := announceAt policy index source
    a :: announce policy (index + 1) later n

def announcements (plan : Plan) : List Announcement :=
  announce plan.identification 0 (.ofSeed plan.profile plan.seed) plan.count.toNat

/-- The frame of an announcement. -/
def frameOf (plan : Plan) (a : Announcement) : Bytes :=
  Frame.bytesOf plan.ends plan.checksums a.identification (Record.encode a.intent)

def frames (plan : Plan) : List Bytes := plan.announcements.map plan.frameOf

/-- What is known of the announcement at `i` before anything is drawn. -/
structure Matches (profile : Profile) (policy : IdPolicy) (i : Nat) (a : Announcement) : Prop where
  kind_eq : a.kind = profile.classAt (.ofNat i)
  nonce_eq : a.intent.nonce = .ofNat i
  random : policy = .random → 1 ≤ a.identification.toNat ∧ a.identification.toNat ≤ 65535
  sequential : policy = .sequential → a.identification = .ofNat (i % 65535 + 1)

theorem draw_next {index : Nat} (policy : IdPolicy) (source : IntentSource)
    (h : index < 2 ^ 64) :
    source.draw (policy.next (.ofNat index)) = identify policy index source := by
  cases policy with
  | random => rw [identify, IdPolicy.next]
  | sequential =>
    rw [IntentSource.draw, IdPolicy.next_sequential, UInt64.toNat_ofNat_of_lt' h]
    rfl

theorem identify_matches (policy : IdPolicy) (index : Nat) (source : IntentSource) :
    (policy = .random → 1 ≤ (identify policy index source).1.toNat ∧
      (identify policy index source).1.toNat ≤ 65535) ∧
    (policy = .sequential → (identify policy index source).1 = .ofNat (index % 65535 + 1)) := by
  constructor
  · rintro rfl
    have bounds := IdPolicy.next_random_mem 0 source.stream
    rwa [IdPolicy.next, ← IntentSource.fst_draw] at bounds
  · rintro rfl
    rfl

theorem profile_identify (policy : IdPolicy) (index : Nat) (source : IntentSource) :
    (identify policy index source).2.profile = source.profile := by
  cases policy with
  | random => rw [identify, IntentSource.profile_draw]
  | sequential => rfl

/-- One announcement.  Draws change the stream of a source but never its `profile`. -/
theorem announceAt_matches (policy : IdPolicy) (index : Nat) (source : IntentSource) :
    Matches source.profile policy index (announceAt policy index source).1 ∧
      (announceAt policy index source).2.profile = source.profile := by
  obtain ⟨random, sequential⟩ := identify_matches policy index (source.intent (.ofNat index)).2
  obtain ⟨nonce_eq, -⟩ :=
    IntentSource.swapOf_always (source.profile.classAt (.ofNat index)) (.ofNat index) source.stream
  exact ⟨⟨rfl, nonce_eq, random, sequential⟩, profile_identify policy index _⟩

theorem announce_succ (policy : IdPolicy) (index : Nat) (source : IntentSource) (n : Nat) :
    announce policy index source (n + 1)
      = (announceAt policy index source).1
        :: announce policy (index + 1) (announceAt policy index source).2 n := rfl

@[simp] theorem length_announce (policy : IdPolicy) (index : Nat) (source : IntentSource)
    (n : Nat) : (announce policy index source n).length = n := by
  induction n generalizing index source with
  | zero => rfl
  | succ n ih => rw [announce_succ, List.length_cons, ih]

theorem announce_at {policy : IdPolicy} {index n i : Nat} {source : IntentSource}
    {a : Announcement} (h : (announce policy index source n)[i]? = some a) :
    Matches source.profile policy (index + i) a := by
  induction n generalizing index source i with
  | zero => cases h
  | succ n ih =>
    obtain ⟨first, profile_eq⟩ := announceAt_matches policy index source
    rw [announce_succ] at h
    cases i with
    | zero =>
      rw [List.getElem?_cons_zero, Option.some_inj] at h
      rwa [← h]
    | succ i =>
      rw [List.getElem?_cons_succ] at h
      -- the source that the rest starts from still has the profile of the plan
      have found := ih h
      rwa [profile_eq, Nat.add_right_comm] at found

@[simp] theorem length_announcements (plan : Plan) :
    plan.announcements.length = plan.count.toNat := length_announce _ _ _ _

theorem announcements_at {plan : Plan} {i : Nat} {a : Announcement}
    (h : plan.announcements[i]? = some a) :
    Matches plan.profile plan.identification i a := by
  have found := announce_at h
  rwa [Nat.zero_add] at found

@[simp] theorem length_frames (plan : Plan) : plan.frames.length = plan.count.toNat := by
  rw [frames, List.length_map, length_announcements]

theorem length_frameOf (plan : Plan) (a : Announcement) : (plan.frameOf a).length = 90 := by
  rw [frameOf, Frame.bytesOf, Frame.length_layout, Record.length_encode]
  rfl

theorem length_of_mem_frames (plan : Plan) : ∀ frame ∈ plan.frames, frame.length = 90 := by
  intro frame mem
  obtain ⟨a, -, rfl⟩ := List.mem_map.mp mem
  exact length_frameOf plan a

theorem short_of_mem_frames (plan : Plan) : ∀ frame ∈ plan.frames, frame.length < 2 ^ 32 := by
  intro frame mem
  rw [length_of_mem_frames plan frame mem]
  decide

/-! ### Carrying out a plan -/

theorem length_encode_le (intent : Intent) :
    (Record.encode intent).length ≤ Frame.maxPayload := by
  rw [Record.length_encode]
  decide

/-- A run puts the frame of each announcement together as it is drawn, and no frame is refused. -/
theorem frameAt_eq (plan : Plan) {index : Nat} (source : IntentSource) (h : index < 2 ^ 64) :
    plan.frameAt (.ofNat index) source
      = (((announceAt plan.identification index source).1.kind,
          .ok ⟨plan.frameOf (announceAt plan.identification index source).1⟩),
        (announceAt plan.identification index source).2) := by
  rw [frameAt, announceAt]
  simp only [draw_next plan.identification _ h, Frame.build_eq_layout (length_encode_le _)]
  rfl

variable {δ : Type} [Device δ]

section OneSwap

variable {plan : Plan} {index : Nat} {state : RunState δ} {a : Announcement}
  {source : IntentSource} {writer : Pcap.Writer δ}

/-- One swap whose frame is appended. -/
theorem appendSwap_of_appended {time : Timestamp} (h : index < 2 ^ 64)
    (announced : announceAt plan.identification index state.source = (a, source))
    (appended : state.writer.append (plan.frameOf a) = (.ok time, writer)) :
    plan.appendSwap (.ofNat index) state
      = (.ok (), ⟨source, writer, state.classes.add a.kind⟩) := by
  have framed := frameAt_eq plan state.source h
  rw [announced] at framed
  simp only [appendSwap, framed, appended]

theorem appendSwap_of_fault {cause : Pcap.Fault} (h : index < 2 ^ 64)
    (announced : announceAt plan.identification index state.source = (a, source))
    (failed : state.writer.append (plan.frameOf a) = (.error cause, writer)) :
    plan.appendSwap (.ofNat index) state
      = (.error (.write cause), ⟨source, writer, state.classes⟩) := by
  have framed := frameAt_eq plan state.source h
  rw [announced] at framed
  simp only [appendSwap, framed, failed]

end OneSwap

/-- Swaps are appended as their frames are, up to the first frame that fails. -/
theorem appendSwaps_eq {plan : Plan} {index n : Nat} {state : RunState δ}
    {result : Except Pcap.Fault Unit} {writer : Pcap.Writer δ} (h : index + n ≤ 2 ^ 64)
    (appended : state.writer.appendAll ((announce plan.identification index state.source n).map
      plan.frameOf) = (result, writer)) :
    ∃ state', plan.appendSwaps (.ofNat index) n state = (result.mapError .write, state') ∧
      state'.writer = writer ∧
      (result = .ok () → state'.classes = ((announce plan.identification index state.source n).map
        Announcement.kind).foldl Tally.add state.classes) := by
  induction n generalizing index state with
  | zero =>
    cases appended
    exact ⟨state, rfl, rfl, fun _ => rfl⟩
  | succ n ih =>
    rw [announce_succ] at appended ⊢
    rw [List.map_cons, Pcap.Writer.appendAll] at appended
    rcases announced : announceAt plan.identification index state.source with ⟨a, source⟩
    rw [announced] at appended
    simp only at appended ⊢
    rcases first : state.writer.append (plan.frameOf a) with ⟨cause | time, next⟩
    · -- the frame fails, so nothing behind it is drawn
      rw [first] at appended
      cases appended
      rw [appendSwaps, appendSwap_of_fault (by omega) announced first]
      exact ⟨_, rfl, rfl, fun ok => by cases ok⟩
    · rw [first] at appended
      rw [appendSwaps, appendSwap_of_appended (by omega) announced first]
      obtain ⟨state', run_eq, writer_eq, classes_eq⟩ :=
        @ih (index + 1) ⟨source, next, state.classes.add a.kind⟩ (by omega) appended
      refine ⟨state', ?_, writer_eq, classes_eq⟩
      rwa [UInt64.ofNat_add] at run_eq

/-- The swaps of a run by class. -/
def tally (plan : Plan) : Tally := (plan.announcements.map Announcement.kind).foldl Tally.add .zero

/-- The summary of a run whose capture has the totals `capture`. -/
def summaryOf (plan : Plan) (capture : Pcap.Totals) : Summary :=
  ⟨plan.profile, plan.seed, plan.base, plan.tally, capture⟩

/-- **Carrying out a plan is writing the capture of its `frames`**, on any device. -/
theorem run_eq (plan : Plan) (device : δ) :
    plan.run device
      = match Pcap.writeAll device plan.base plan.frames with
        | (.error cause, after) => (.error (.write cause), after)
        | (.ok capture, after) => (.ok (plan.summaryOf capture), after) := by
  -- both sides create the writer and close it in the same way; between them are the swaps
  rw [run, Pcap.writeAll]
  rcases Pcap.Writer.create device plan.base with ⟨cause | writer, opened⟩
  · rfl
  simp only
  rcases appended : writer.appendAll plan.frames with ⟨result, last⟩
  have count_le : 0 + plan.count.toNat ≤ 2 ^ 64 := by
    have := plan.count.toNat_lt
    omega
  obtain ⟨state', run_eq, writer_eq, classes_eq⟩ :=
    @appendSwaps_eq _ _ plan 0 plan.count.toNat ⟨.ofSeed plan.profile plan.seed, writer, .zero⟩
      result last count_le appended
  rcases result with cause | _
  · have failed : plan.appendSwaps 0 plan.count.toNat
        ⟨.ofSeed plan.profile plan.seed, writer, .zero⟩ = (.error (.write cause), state') := run_eq
    simp only [failed, writer_eq]
  · have went_well : plan.appendSwaps 0 plan.count.toNat
        ⟨.ofSeed plan.profile plan.seed, writer, .zero⟩ = (.ok (), state') := run_eq
    have classes_eq : state'.classes = plan.tally := classes_eq rfl
    rcases closed : last.close with ⟨cause | capture, after⟩
    · simp only [went_well, writer_eq, closed]
    · simp only [went_well, writer_eq, closed, classes_eq, summaryOf]

/-- What a plan makes of the outcome of its capture. -/
def report (plan : Plan) : Except Pcap.Fault Pcap.Totals → Except Plan.Fault Summary
  | .error cause => .error (.write cause)
  | .ok capture => .ok (plan.summaryOf capture)

/-- What a run that went well has written and reports. -/
theorem eq_summaryOf_of_run {plan : Plan} {device after : δ} {summary : Summary}
    (h : plan.run device = (.ok summary, after)) :
    plan.count.toNat ≤ Timestamp.room plan.base ∧
      summary = plan.summaryOf (Pcap.totals plan.base plan.frames) ∧
      Device.contents after = Device.contents device ++ Pcap.image plan.base plan.frames := by
  rw [run_eq] at h
  rcases written : Pcap.writeAll device plan.base plan.frames with ⟨cause | capture, last⟩
  · rw [written] at h
    cases h
  rw [written] at h
  cases h
  obtain ⟨within, rfl, held⟩ :=
    Pcap.eq_totals_of_writeAll (short_of_mem_frames plan) written
  rw [length_frames] at within
  exact ⟨within, rfl, held⟩

/-- On a device that is `Accepting` a run goes well as long as the clock has room. -/
theorem run_of_accepting {plan : Plan} {device : δ} (accepting : Device.Accepting device)
    (room : plan.count.toNat ≤ Timestamp.room plan.base) :
    ∃ after, plan.run device
      = (.ok (plan.summaryOf (Pcap.totals plan.base plan.frames)), after) := by
  obtain ⟨after, written⟩ := Pcap.writeAll_of_accepting accepting (short_of_mem_frames plan)
    (by rwa [length_frames])
  exact ⟨after, by rw [run_eq, written]⟩

end Plan

end SwapCapture
