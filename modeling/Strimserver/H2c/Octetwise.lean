import Strimserver.H2c.Receiver

/-!
# The reassembly does not depend on the frames

`stream_feed_data` takes the data octet by octet. The slot behind the DATA frames of a
stream then depends on their octets only, and not on where one frame ends and the next
begins.

The receive window of the slot is left out. The frames lower it before their data is
looked at, and a response gives credit for it.
-/

namespace Strimserver.H2c

open Hpack Library

namespace Conn

variable {c d : Conn} {i : Slot}

/-! ## The window -/

/-- The slots are the same but for the window. -/
def Alike (i : Slot) (c d : Conn) : Prop := (d.streams i).windowless = (c.streams i).windowless

section

variable (alike : Alike i c d)

include alike

theorem Alike.state : (d.streams i).state = (c.streams i).state := (congrArg Stream.state alike :)

theorem Alike.slot : ∃ window, d.streams i = { c.streams i with recvWindow := window } :=
  ⟨(d.streams i).recvWindow,
    congrArg (fun s : Stream => { s with recvWindow := (d.streams i).recvWindow }) alike⟩

omit alike in
theorem Alike.set {s t : Stream} (same : t.windowless = s.windowless) :
    Alike i (c.set i s) (d.set i t) := by
  unfold Alike
  rwa [set_streams, set_streams]

theorem Alike.map (f : Stream → Stream) (window : ∀ s, (f s).windowless = f s.windowless) :
    Alike i (c.set i (f (c.streams i))) (d.set i (f (d.streams i))) := by
  refine .set ?_
  rw [window, window]
  exact congrArg f alike

theorem Alike.streamCreditMessage (total : ℕ) :
    Alike i (c.streamCreditMessage i total) (d.streamCreditMessage i total) :=
  (streamCreditMessage_windowless d i total).trans
    (alike.trans (streamCreditMessage_windowless c i total).symm)

theorem Alike.streamAbort (code : H2Code) (err : H2cError) :
    Alike i (c.streamAbort i code err) (d.streamAbort i code err) := by
  obtain ⟨window, slot⟩ := alike.slot
  rw [streamAbort_eq, streamAbort_eq, slot]
  exact .set (by rfl)

/-- Two outcomes alike but for a slot. -/
inductive Feed.Alike (i : Slot) : Feed → Feed → Prop where
  | stop {c d : Conn} (alike : Conn.Alike i c d) : Feed.Alike i (.stop c) (.stop d)
  | next {c d : Conn} (alike : Conn.Alike i c d) (data : Octets) :
      Feed.Alike i (.next c data) (.next d data)

theorem Alike.completeMessage (data : Octets) :
    (c.completeMessage i data).Alike i (d.completeMessage i data) := by
  obtain ⟨window, slot⟩ := alike.slot
  unfold Conn.completeMessage
  rw [slot]
  dsimp only
  cases (c.streams i).type with
  | subscribe =>
    dsimp only
    split
    · exact .stop (alike.streamAbort ..)
    · exact .next (.set (by rfl)) data
  | unary =>
    dsimp only
    split
    · exact .stop (Alike.streamAbort (.set (by rfl)) ..)
    · exact .next (Alike.map (Alike.streamCreditMessage (.set (by rfl)) _)
        (fun s => { s with rasmBody := false, rasmHdr := [] }) fun _ => rfl) data

theorem Alike.feedBody (data : Octets) : (c.feedBody i data).Alike i (d.feedBody i data) := by
  obtain ⟨window, slot⟩ := alike.slot
  have copied (octets : Octets) : copyBody { c.streams i with recvWindow := window } octets =
      { copyBody (c.streams i) octets with recvWindow := window } := by
    unfold copyBody
    cases (c.streams i).type with
    | unary => rfl
    | subscribe => rfl
  unfold Conn.feedBody
  rw [slot]
  dsimp only
  rw [copied]
  split
  · exact .next alike data
  split
  · exact .next (.set (by rfl)) _
  · exact Alike.completeMessage (.set (by rfl)) _

theorem Alike.startMessage (msglen : ℕ) (data : Octets) :
    (c.startMessage i msglen data).Alike i (d.startMessage i msglen data) := by
  obtain ⟨window, slot⟩ := alike.slot
  unfold Conn.startMessage
  rw [slot]
  dsimp only
  split
  · exact .stop (Alike.streamAbort (.set (by rfl)) ..)
  cases (c.streams i).type with
  | subscribe => exact .next (.set (by rfl)) data
  | unary =>
    dsimp only
    split
    · exact .stop (.set (by rfl))
    · exact .next (.set (by rfl)) data

theorem Alike.feedRound (data : Octets) : (c.feedRound i data).Alike i (d.feedRound i data) := by
  obtain ⟨window, slot⟩ := alike.slot
  rw [feedRound_eq, feedRound_eq]
  suffices first : (c.feedHeader i data).Alike i (d.feedHeader i data) by
    generalize c.feedHeader i data = feed, d.feedHeader i data = feed' at first ⊢
    cases first with
    | stop alike => exact .stop alike
    | next alike rest => exact alike.feedBody rest
  unfold feedHeader
  rw [slot]
  dsimp only
  split
  · exact .next alike data
  split
  · split
    · exact .stop (Alike.streamAbort (.set (by rfl)) ..)
    · exact Alike.startMessage (.set (by rfl)) ..
  · exact .stop (.set (by rfl))

theorem Alike.foldl_octet (data : Octets) :
    Alike i (data.foldl (octet · i) c) (data.foldl (octet · i) d) := by
  induction data generalizing c d with
  | nil => exact alike
  | cons b data ih =>
    refine ih ?_
    unfold octet
    dsimp only
    rw [alike.state]
    split
    · exact alike
    have round := alike.feedRound [b]
    generalize c.feedRound i [b] = feed, d.feedRound i [b] = feed' at round ⊢
    cases round with
    | stop alike | next alike => exact alike

end

/-! ## DATA frames -/

/-- DATA frames of one stream, as flags and payloads, up to the first that is refused. -/
def handleDataFrames (c : Conn) (sid : ℕ) : List (UInt8 × Octets) → Conn × Bool
  | [] => (c, true)
  | (flags, payload) :: frames =>
    match c.handleDataFrame flags sid payload with
    | (c, false) => (c, false)
    | (c, true) => c.handleDataFrames sid frames

/-- Data leaves the streams where they are. -/
theorem steady_places (c : Conn) : Steady fun c' => ∀ j,
    (c'.streams j).inUse = (c.streams j).inUse ∧ (c'.streams j).id = (c.streams j).id where
  write _ same j := by rw [frameWrite_streams]; exact same j
  window _ same := same
  set {c' i s} standing same j := by
    obtain ⟨id, inUse, -⟩ := Prod.mk.inj standing |>.imp_right Prod.mk.inj
    by_cases here : j = i
    · subst here
      rw [set_streams, inUse, id]
      exact same j
    · rw [set_streams_of_ne _ here]
      exact same j
  reset {c' i s} code id inUse _ _ same j := by
    by_cases here : j = i
    · subst here
      rw [set_streams, inUse, id]
      exact same j
    · rw [set_streams_of_ne _ here, frameWriteRst_streams]
      exact same j

/-- **A DATA frame** that is accepted gives its octets to the stream. -/
theorem handleDataFrame_octets {sid : ℕ} (found : c.streamFind sid = some i)
    (midway : (c.streams i).state ≠ .done → (c.streams i).Midway) {flags : UInt8} {payload : Octets}
    (unpadded : has flags flagPadded = false) (more : has flags flagEndStream = false)
    (accepted : (c.handleDataFrame flags sid payload).2 = true) :
    Alike i (payload.foldl (octet · i) c) (c.handleDataFrame flags sid payload).1 := by
  unfold handleDataFrame at accepted ⊢
  rw [found] at accepted ⊢
  dsimp only at accepted ⊢
  by_cases done : (c.streams i).state = .done
  · rw [if_pos done, foldl_octet_done done]
    rfl
  rw [if_neg done] at accepted ⊢
  split at accepted
  · cases accepted
  rename_i fits
  have whole : unpad flags payload = some payload := if_neg (by rw [unpadded]; decide)
  have open' (c : Conn) : ¬ (has flags flagEndStream = true ∧ (c.streams i).rasmBody = true) :=
    fun ends => absurd ends.1 (by rw [more]; decide)
  rw [if_neg fits, whole]
  dsimp only
  rw [if_neg (open' _)]
  have slot : (c.debit i payload.length).streams i = _ := set_streams ..
  have alike : Alike i c (c.debit i payload.length) := by
    unfold Alike
    rw [slot]
    rfl
  have fed : streamFeedData payload.length (c.debit i payload.length) i payload = _ :=
    streamFeedData_octets (by rw [slot]; exact done) (by rw [slot]; exact midway done)
      (Nat.le_refl _)
  have same := alike.foldl_octet payload
  rwa [← fed] at same

/-- **DATA frames** that are accepted give all their octets to the stream. -/
theorem handleDataFrames_octets {sid : ℕ} {frames : List (UInt8 × Octets)}
    (plain : ∀ f ∈ frames, has f.1 flagPadded = false ∧ has f.1 flagEndStream = false)
    (found : c.streamFind sid = some i)
    (midway : (c.streams i).state ≠ .done → (c.streams i).Midway)
    (accepted : (c.handleDataFrames sid frames).2 = true) :
    Alike i ((frames.map Prod.snd).flatten.foldl (octet · i) c)
      (c.handleDataFrames sid frames).1 := by
  induction frames generalizing c with
  | nil => rfl
  | cons f frames ih =>
    obtain ⟨flags, payload⟩ := f
    obtain ⟨unpadded, more⟩ := plain _ List.mem_cons_self
    have first : (c.handleDataFrame flags sid payload).2 = true → _ :=
      handleDataFrame_octets found midway unpadded more
    have places := (steady_places c).handleDataFrame flags sid payload fun _ => ⟨rfl, rfl⟩
    rw [handleDataFrames] at accepted ⊢
    rcases result : c.handleDataFrame flags sid payload with ⟨c', _ | _⟩
    · rw [result] at accepted
      cases accepted
    rw [result] at accepted first places
    have alike : Alike i (payload.foldl (octet · i) c) c' := first rfl
    obtain ⟨window, slot⟩ := alike.slot
    have midway' : (c'.streams i).state ≠ .done → (c'.streams i).Midway := by
      rw [slot]
      exact foldl_octet_midway midway
    have rest := ih (c := c') (fun f' mem => plain f' (List.mem_cons_of_mem _ mem))
      ((streamFind_congr places sid).trans found) midway' accepted
    rw [List.map_cons, List.flatten_cons, List.foldl_append]
    exact Eq.trans rest (alike.foldl_octet _)

/-- **The reassembly does not depend on the frames.** Two ways to cut the same data into accepted
DATA frames without padding that do not end the stream leave the slot in the same state: the part of
a message, the queue or the response with its length and number of messages, the status and the
error. -/
theorem reassembly_independent_of_frames (c : Conn) (sid : ℕ) (i : Slot)
    (found : c.streamFind sid = some i)
    (midway : (c.streams i).state ≠ .done → (c.streams i).Midway)
    (cut₁ cut₂ : List (UInt8 × Octets))
    (plain₁ : ∀ f ∈ cut₁, has f.1 flagPadded = false ∧ has f.1 flagEndStream = false)
    (plain₂ : ∀ f ∈ cut₂, has f.1 flagPadded = false ∧ has f.1 flagEndStream = false)
    (same : (cut₁.map Prod.snd).flatten = (cut₂.map Prod.snd).flatten)
    (accepted₁ : (c.handleDataFrames sid cut₁).2 = true)
    (accepted₂ : (c.handleDataFrames sid cut₂).2 = true) :
    ((c.handleDataFrames sid cut₁).1.streams i).windowless =
      ((c.handleDataFrames sid cut₂).1.streams i).windowless := by
  have octets₁ := handleDataFrames_octets plain₁ found midway accepted₁
  have octets₂ := handleDataFrames_octets plain₂ found midway accepted₂
  rw [same] at octets₁
  exact octets₁.trans octets₂.symm

/-- A subscription that has no data yet. -/
def listening : Conn :=
  (fresh []).set 0
    { Stream.zero with
      id := 1, inUse := true, type := .subscribe, state := .headers, recvWindow := initWindow }

/-- A message in one frame, and in three that cut its length and are followed by one
without data. -/
theorem message_in_one_frame_or_four :
    ((listening.handleDataFrames 1 [(0, [0, 0, 0, 0, 1, 97])]).1.streams 0).windowless =
        ((listening.handleDataFrames 1
          [(0, [0, 0]), (0, [0, 0, 1]), (0, [97]), (0, [])]).1.streams 0).windowless ∧
      ((listening.handleDataFrames 1 [(0, [0, 0, 0, 0, 1, 97])]).1.streams 0).queue = [[97]] :=
  ⟨reassembly_independent_of_frames listening 1 0 (by decide) (fun _ => by decide) _ _ (by decide)
    (by decide) rfl (by decide +kernel) (by decide +kernel), by decide +kernel⟩

end Conn

/-- The streams of a client that can be used are midway, as the theorem asks for. -/
theorem midway_of_reachable {c : Client} (reachable : clients.Reachable c) (live : c.Live)
    {i : Slot} (inUse : (c.conn.streams i).inUse = true)
    (going : (c.conn.streams i).state ≠ .done) : (c.conn.streams i).Midway := by
  have slot := ((Client.sound_of_live reachable live).slots i).of_received
  obtain ⟨rest, at'⟩ := slot.at' inUse going
  exact at'.midway

end Strimserver.H2c
