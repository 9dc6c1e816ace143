import MoonlightScarlet.Core.InputStream
import MoonlightScarlet.Support.Batching
import Mathlib.Data.List.Nodup
/-!
# The input stream is a pipeline

The statics and the queue stand for packets that wait and for carriers: the holder of a
relative move carries whatever motion is added until the input thread takes it, and that of
a position carries the last one.  Each step of the threads is a step of the pipeline.
-/

namespace MoonlightScarlet.Core.InputStream

open LinkedBlockingQueue (Contents)
open Support.Runs Support.Batching

variable {P K : Type}

/-! ## What the host makes of the packets -/

/-- The motion that was sent, in both directions. -/
def motion : Receiver (Packet K) (Int × Int) where
  init := (0, 0)
  receive total
    | .mouseMoveRel deltaX deltaY => (total.1 + deltaX.toInt, total.2 + deltaY.toInt)
    | _ => total

/-- The last position. -/
def position : Receiver (Packet K) (Option (Packet K)) where
  init := none
  receive last
    | .mouseMoveAbs x y width height => some (.mouseMoveAbs x y width height)
    | _ => last

def MultiController.buttons (fields : MultiController) : UInt16 × UInt16 :=
  (fields.buttonFlags, fields.buttonFlags2)

/-- The last state of a controller, and the buttons that were down, one state after the
other. -/
structure Controller where
  state : Option MultiController := none
  presses : List (UInt16 × UInt16) := []

def Controller.update (seen : Controller) (fields : MultiController) : Controller where
  state := some fields
  presses :=
    if seen.state.map MultiController.buttons = some fields.buttons then seen.presses
    else seen.presses ++ [fields.buttons]

def controller (number : Fin 16) : Receiver (Packet K) Controller where
  init := {}
  receive seen
    | .multiController fields =>
        if fields.controllerNumber = number then seen.update fields else seen
    | _ => seen

inductive Carrier
  | relative
  | absolute

inductive Aspect
  | motion
  | position
  | controller (number : Fin 16)

abbrev Aspect.Value (K : Type) : Aspect → Type
  | .motion => Int × Int
  | .position => Option (Packet K)
  | .controller _ => Controller

def Aspect.receiver : (aspect : Aspect) → Receiver (Packet K) (aspect.Value K)
  | .motion => InputStream.motion
  | .position => InputStream.position
  | .controller number => InputStream.controller number

def Aspect.carries : Aspect → Carrier → Prop
  | .motion, .relative | .position, .absolute => True
  | _, _ => False

def Packet.ordered : Packet K → Bool
  | .other _ => true
  | _ => false

/-- Buttons, keys, scrolls and touches keep their place, and moves, positions and controllers
are batched. -/
def scheme : Scheme (Packet K) Carrier Aspect (Aspect.Value K) where
  receiver := Aspect.receiver
  carries := Aspect.carries
  ordered := Packet.ordered
  ignores_ordered := by
    intro aspect packet hordered v
    cases packet with
    | other payload => cases aspect <;> rfl
    | _ => cases hordered

section Receivers

variable (aspect : Aspect)

theorem ignores_move (h : aspect ≠ .motion) (deltaX deltaY : Int16) :
    (aspect.receiver : Receiver (Packet K) _).Ignores (.mouseMoveRel deltaX deltaY) := by
  intro v
  cases aspect with
  | motion => exact absurd rfl h
  | position => rfl
  | controller number => rfl

theorem ignores_position (h : aspect ≠ .position) (x y width height : Int16) :
    (aspect.receiver : Receiver (Packet K) _).Ignores (.mouseMoveAbs x y width height) := by
  intro v
  cases aspect with
  | motion => rfl
  | position => exact absurd rfl h
  | controller number => rfl

theorem ignores_controller {fields : MultiController}
    (h : aspect ≠ .controller fields.controllerNumber) :
    (aspect.receiver : Receiver (Packet K) _).Ignores (.multiController fields) := by
  intro v
  cases aspect with
  | motion => rfl
  | position => rfl
  | controller number =>
      have hne : fields.controllerNumber ≠ number := by
        rintro rfl
        exact h rfl
      exact if_neg hne

theorem Controller.update_update (seen : Controller) {old new : MultiController}
    (h : old.buttons = new.buttons) : (seen.update old).update new = seen.update new := by
  have hlast : (seen.update old).state.map MultiController.buttons = some new.buttons := by
    rw [← h]
    rfl
  rw [update, if_pos hlast]
  simp only [update, h]

theorem supersedes_controller {number : Fin 16} {old new : MultiController}
    (hold : old.controllerNumber = number) (hnew : new.controllerNumber = number)
    (h : old.buttons = new.buttons) :
    (controller number : Receiver (Packet K) _).Supersedes
      (.multiController new) (.multiController old) := by
  intro v
  simp only [controller, if_pos hold, if_pos hnew, Controller.update_update v h]

end Receivers

/-! ## The pipeline -/

def Packet.carrier? : Packet K → Option Carrier
  | .mouseMoveRel _ _ => some .relative
  | .mouseMoveAbs _ _ _ _ => some .absolute
  | _ => none

/-- What a packet on the queue stands for. -/
def Packet.item (packet : Packet K) : Item (Packet K) Carrier :=
  match packet.carrier? with
  | some carrier => .carrier carrier
  | none => .packet packet

def Sender.claim : Sender P K → Option Carrier
  | .idle => none
  | .allocating packet | .filling packet _ | .offering packet _ => packet.carrier?

namespace InputThread

/-- The holder that the input thread has not looked at yet. -/
def fresh? : InputThread P → Option P
  | .taken holder => some holder
  | _ => none

/-- What the input thread has looked at and not sent yet. -/
def items (memory : P → Packet K) : InputThread P → List (Item (Packet K) Carrier)
  | .moving _ => [.carrier .relative]
  | .sendingMove holder _ => [.packet (memory holder), .carrier .relative]
  | .sending holder => [.packet (memory holder)]
  | _ => []

end InputThread

namespace State

variable (s : State P K)

def queued : List P := s.packetQueue.elements.map Prod.snd

/-- The holders that nobody has looked at since they were offered. -/
def fresh : List P := s.thread.fresh?.toList ++ s.queued

def items : List (Item (Packet K) Carrier) :=
  s.thread.items s.memory ++ s.fresh.map fun holder => (s.memory holder).item

def view : Pipeline (Packet K) Carrier where
  given := s.given
  sent := s.sent.map Prod.fst
  items := s.items
  claim := s.sender.claim

end State

/-! ## What a step can do -/

section Queue

variable {queue queue' : Contents P P} {holder : P} {taken : Option P}

theorem offerHolder_success (h : offerHolder queue holder = (queue', true)) :
    queue' = { queue with elements := queue.elements ++ [(holder, holder)] } := by
  unfold offerHolder at h
  simp only [Contents.perform] at h
  split_ifs at h
  · cases h
  · cases h
  · cases h
    rfl

theorem waitForHolder_cases (h : waitForHolder queue = some (queue', taken)) :
    (∃ entry holder rest, queue.elements = (entry, holder) :: rest ∧
      queue' = { queue with elements := rest } ∧ taken = some holder) ∨
    (taken = none ∧ queue.ready = true ∧
      (queue.elements = [] ∨ queue.shutdown = true ∨ queue.pendingUserWake = true) ∧
      ∃ wake, queue' = { queue with pendingUserWake := wake } ∧
        (wake = true → queue.pendingUserWake = true)) := by
  unfold waitForHolder at h
  split_ifs at h with hready
  simp only [Contents.perform] at h
  split_ifs at h with hshutdown hwake
  · cases h
    exact .inr ⟨rfl, hready, .inr (.inl hshutdown), _, rfl, id⟩
  · cases h
    exact .inr ⟨rfl, hready, .inr (.inr hwake), false, rfl, fun h => absurd h Bool.false_ne_true⟩
  · cases helements : queue.elements with
    | nil =>
        simp only [Contents.found, helements] at h
        cases h
        refine .inr ⟨rfl, hready, .inl rfl, queue.pendingUserWake, ?_, id⟩
        rw [← helements]
    | cons element rest =>
        simp only [Contents.found, helements] at h
        cases h
        exact .inl ⟨element.1, element.2, rest, rfl, rfl, rfl⟩

end Queue

variable [DecidableEq P]

/-- A caller that starts to send a packet that is not batched, or is done. -/
def Sender.Starts (sender : Sender P K) : Prop :=
  sender = .idle ∨ ∃ payload, sender = .allocating (.other payload)

/-- What only a scroll changes. -/
def State.scrolled (s : State P K) (delta : Int32) (scrolling : Bool) (sender : Sender P K) :
    State P K :=
  { s with batchedScrollDelta := delta, scrolling, sender }

/-- The ways in which the threads can go on. -/
inductive Move (s : State P K) : Label P K → State P K → Prop
  | pass (event : Event K) (hidle : s.sender = .idle) : Move s (.call event) s
  | mouseMove (deltaX deltaY : Int16) (hidle : s.sender = .idle) (hopen : s.initialized = true) :
      Move s (.call (.mouseMove deltaX deltaY))
        { s with
          relative :=
            { deltaX := s.relative.deltaX + deltaX.toInt32
              deltaY := s.relative.deltaY + deltaY.toInt32
              dirty := true }
          sender := if s.relative.dirty then .idle else .allocating (.mouseMoveRel 0 0)
          given := s.given ++ [.mouseMoveRel deltaX deltaY] }
  | mousePosition (x y width height : Int16) (hidle : s.sender = .idle)
      (hopen : s.initialized = true) :
      Move s (.call (.mousePosition x y width height)) (s.mousePosition x y width height)
  | merge (event : Event K) (hidle : s.sender = .idle) (old new : MultiController) (holder : P)
      (hcurrent : s.currentQueuedControllerPacket new.controllerNumber = some holder)
      (hold : s.memory holder = .multiController old) (hbuttons : old.buttons = new.buttons)
      (hopen : s.initialized = true) :
      Move s (.call event)
        { s.write holder (.multiController new) with
          given := s.given ++ [.multiController new] }
  | begin (event : Event K) (hidle : s.sender = .idle) (packet : Packet K)
      (hpacket : packet.carrier? = none) (hopen : s.initialized = true) :
      Move s (.call event) { s with sender := .allocating packet }
  | scroll (event : Event K) (hidle : s.sender = .idle) (delta : Int32) (scrolling : Bool)
      (sender : Sender P K) (hsender : sender.Starts) (hopen : s.initialized = true) :
      Move s (.call event) (s.scrolled delta scrolling sender)
  | allocate (packet : Packet K) (holder : P) (hsender : s.sender = .allocating packet)
      (hholder : holder ∉ s.holders) :
      Move s (.allocate (some holder)) { s with sender := .filling packet holder }
  | allocateFails (packet : Packet K) (hsender : s.sender = .allocating packet) :
      Move s (.allocate none) (s.abandon packet)
  | fill (packet : Packet K) (holder : P) (hsender : s.sender = .filling packet holder) :
      Move s .fill (s.fill packet holder)
  | offer (packet : Packet K) (holder : P) (hsender : s.sender = .offering packet holder) :
      Move s .offer
        ({ s with
          packetQueue :=
            { s.packetQueue with
              elements := s.packetQueue.elements ++ [(holder, holder)] } }.offered packet)
  | offerScroll (payload : K) (holder : P) (hsender : s.sender = .offering (.other payload) holder)
      (delta : Int32) (scrolling : Bool) (sender : Sender P K) (hnext : sender.Starts) :
      Move s .offer
        (({ s with
          packetQueue :=
            { s.packetQueue with
              elements := s.packetQueue.elements ++ [(holder, holder)] } }.offered
                (.other payload)).scrolled delta scrolling sender)
  | offerFails (packet : Packet K) (holder : P) (hsender : s.sender = .offering packet holder)
      (hfull : (offerHolder s.packetQueue holder).2 = false) :
      Move s .offer (s.abandon packet)
  | stop (hidle : s.sender = .idle) :
      Move s .stop
        { s with
          initialized := false
          packetQueue := { s.packetQueue with draining := true }
          sender := .idle }
  | destroy (hidle : s.sender = .idle) (hclosed : s.initialized = false)
      (hreturned : s.thread = .ended ∨ s.thread = .failed) : Move s .destroy s.destroy
  | restart (hidle : s.sender = .idle) (habsent : s.thread = .absent) : Move s .restart s.restart
  | take (hwaiting : s.thread = .waiting) (entry holder : P) (rest : List (P × P))
      (helements : s.packetQueue.elements = (entry, holder) :: rest) :
      Move s .wait
        { s with
          packetQueue := { s.packetQueue with elements := rest }
          thread := .taken holder }
  | finish (hwaiting : s.thread = .waiting) (wake : Bool)
      (hwake : wake = true → s.packetQueue.pendingUserWake = true)
      (hready : s.packetQueue.ready = true)
      (hdone : s.packetQueue.elements = [] ∨ s.packetQueue.shutdown = true ∨
        s.packetQueue.pendingUserWake = true) :
      Move s .wait
        { s with
          packetQueue := { s.packetQueue with pendingUserWake := wake }
          thread := .ended }
  | dispatch (holder : P) (htaken : s.thread = .taken holder) :
      Move s .dispatch (s.dispatch holder)
  | split (holder : P) (hmoving : s.thread = .moving holder) : Move s .split (s.split holder)
  | sendMove (holder : P) (more ok : Bool) (hthread : s.thread = .sendingMove holder more) :
      Move s (.send ok) (s.send holder more (.moving holder) ok)
  | send (holder : P) (more ok : Bool) (hthread : s.thread = .sending holder) :
      Move s (.send ok) (s.send holder more .waiting ok)

section Step

variable {hosts : ℕ → Host K} {host : Host K} {s t : State P K} {label : Label P K}

theorem Packet.sameButtons_eq_true {packet : Packet K} {new : MultiController}
    (h : packet.sameButtons new = true) :
    ∃ old, packet = .multiController old ∧ old.buttons = new.buttons := by
  cases packet with
  | multiController old =>
      simp only [sameButtons, Bool.and_eq_true, beq_iff_eq] at h
      exact ⟨old, rfl, Prod.ext h.1 h.2⟩
  | _ => cases h

theorem controllerEvent_move (hidle : s.sender = .idle) (hopen : s.initialized = true)
    (event : Event K) {packet : Packet K} (hpacket : packet.carrier? = none) :
    Move s (.call event) (s.controllerEvent packet) := by
  cases packet with
  | mouseMoveRel => cases hpacket
  | mouseMoveAbs => cases hpacket
  | other payload => exact .begin event hidle _ rfl hopen
  | multiController new =>
      simp only [State.controllerEvent]
      cases hcurrent : s.currentQueuedControllerPacket new.controllerNumber with
      | none => exact .begin event hidle _ rfl hopen
      | some holder =>
          dsimp only
          split_ifs with hsame
          · obtain ⟨old, hold, hbuttons⟩ := Packet.sameButtons_eq_true hsame
            exact .merge event hidle old new holder hcurrent hold hbuttons hopen
          · exact .begin event hidle _ rfl hopen

theorem controllerPacket_carrier (event : ControllerEvent) :
    (controllerPacket host event).carrier? = none := by
  unfold controllerPacket
  dsimp only
  split_ifs <;> rfl

omit [DecidableEq P] in
theorem scrollRound_scrolled (s : State P K) (host : Host K) :
    ∃ delta scrolling sender, sender.Starts ∧
      s.scrollRound host = s.scrolled delta scrolling sender := by
  unfold State.scrollRound
  split_ifs
  · exact ⟨s.batchedScrollDelta, true, _, .inr ⟨_, rfl⟩, rfl⟩
  · exact ⟨s.batchedScrollDelta, false, .idle, .inl rfl, rfl⟩

theorem scroll_move (hidle : s.sender = .idle) (hopen : s.initialized = true) (event : Event K)
    (amount : Int16) : Move s (.call event) (s.scroll host amount) := by
  unfold State.scroll
  by_cases hzero : amount = 0
  · rw [if_pos hzero]
    exact .pass event hidle
  rw [if_neg hzero]
  by_cases hbatched : host.needsBatchedScroll = true
  · rw [if_pos hbatched]
    obtain ⟨delta, scrolling, sender, hstarts, hround⟩ := scrollRound_scrolled _ host
    rw [hround]
    exact .scroll event hidle delta scrolling sender hstarts hopen
  · rw [if_neg hbatched]
    exact .begin event hidle (.other _) rfl hopen

theorem call_move (hidle : s.sender = .idle) (hopen : s.initialized = true) (event : Event K) :
    Move s (.call event) (s.call host event) := by
  cases event with
  | mouseMove deltaX deltaY =>
      by_cases hzero : deltaX = 0 ∧ deltaY = 0
      · rw [State.call, State.mouseMove, if_pos hzero]
        exact .pass _ hidle
      · rw [State.call, State.mouseMove, if_neg hzero]
        exact .mouseMove deltaX deltaY hidle hopen
  | mousePosition x y width height => exact .mousePosition x y width height hidle hopen
  | controller event => exact controllerEvent_move hidle hopen _ (controllerPacket_carrier event)
  | scroll amount => exact scroll_move hidle hopen _ amount
  | other payload => exact .begin _ hidle _ rfl hopen

theorem offer_move {packet : Packet K} {holder : P} (hsender : s.sender = .offering packet holder) :
    Move s .offer (s.offer host packet holder) := by
  unfold State.offer
  rcases hoffer : offerHolder s.packetQueue holder with ⟨queue, taken⟩
  cases taken with
  | true =>
      rw [offerHolder_success hoffer]
      cases packet with
      | other payload =>
          dsimp only [State.goOn]
          split_ifs
          · obtain ⟨delta, scrolling, sender, hstarts, hround⟩ := scrollRound_scrolled _ host
            rw [hround]
            exact .offerScroll payload holder hsender delta scrolling sender hstarts
          · exact .offer _ holder hsender
      | _ => exact .offer _ holder hsender
  | false => exact .offerFails packet holder hsender (by rw [hoffer])

theorem wait_move {queue : Contents P P} {taken : Option P} (hwaiting : s.thread = .waiting)
    (h : waitForHolder s.packetQueue = some (queue, taken)) :
    Move s .wait
      { s with packetQueue := queue, thread := (taken.map .taken).getD .ended } := by
  obtain ⟨entry, holder, rest, helements, rfl, rfl⟩ | ⟨rfl, hready, hdone, wake, rfl, hwake⟩ :=
    waitForHolder_cases h
  · exact .take hwaiting entry holder rest helements
  · exact .finish hwaiting wake hwake hready hdone

/-- A step of the threads is one of the moves. -/
theorem step_move (h : step hosts s label = some t) : Move s label t := by
  cases label with
  | call event =>
      cases hsender : s.sender with
      | idle =>
          simp only [step, hsender] at h
          split_ifs at h with hinitialized
          · cases h
            exact call_move hsender hinitialized event
          · cases h
            exact .pass event hsender
      | _ => simp [step, hsender] at h
  | allocate holder =>
      cases hsender : s.sender with
      | allocating packet =>
          cases holder with
          | none =>
              simp only [step, hsender] at h
              cases h
              exact .allocateFails packet hsender
          | some holder =>
              simp only [step, hsender] at h
              split_ifs at h with hholder
              cases h
              exact .allocate packet holder hsender hholder
      | _ => simp [step, hsender] at h
  | fill =>
      cases hsender : s.sender with
      | filling packet holder =>
          simp only [step, hsender] at h
          cases h
          exact .fill packet holder hsender
      | _ => simp [step, hsender] at h
  | offer =>
      cases hsender : s.sender with
      | offering packet holder =>
          simp only [step, hsender] at h
          cases h
          exact offer_move hsender
      | _ => simp [step, hsender] at h
  | stop =>
      cases hsender : s.sender with
      | idle =>
          simp only [step, hsender] at h
          cases h
          exact .stop hsender
      | _ => simp [step, hsender] at h
  | destroy =>
      simp only [step] at h
      split at h
      case h_1 hsender hclosed hthread =>
        cases h
        exact .destroy hsender hclosed (.inl hthread)
      case h_2 hsender hclosed hthread =>
        cases h
        exact .destroy hsender hclosed (.inr hthread)
      case h_3 => cases h
  | restart =>
      simp only [step] at h
      split at h
      case h_1 hsender hthread =>
        cases h
        exact .restart hsender hthread
      case h_2 => cases h
  | wait =>
      cases hthread : s.thread with
      | waiting =>
          simp only [step, hthread, Option.map_eq_some_iff] at h
          obtain ⟨⟨queue, taken⟩, hwait, rfl⟩ := h
          exact wait_move hthread hwait
      | _ => simp [step, hthread] at h
  | dispatch =>
      cases hthread : s.thread with
      | taken holder =>
          simp only [step, hthread] at h
          cases h
          exact .dispatch holder hthread
      | _ => simp [step, hthread] at h
  | split =>
      cases hthread : s.thread with
      | moving holder =>
          simp only [step, hthread] at h
          cases h
          exact .split holder hthread
      | _ => simp [step, hthread] at h
  | send ok =>
      cases hthread : s.thread with
      | sendingMove holder more =>
          simp only [step, hthread] at h
          cases h
          exact .sendMove holder more ok hthread
      | sending holder =>
          simp only [step, hthread] at h
          cases h
          exact .send holder _ ok hthread
      | _ => simp [step, hthread] at h

end Step

end MoonlightScarlet.Core.InputStream
