import MoonlightScarlet.Core.Proofs.InputStream
import Mathlib.Algebra.Group.Prod
import Mathlib.Algebra.Ring.Int.Defs
/-!
# No motion is lost

Each holder belongs to one thread or to the queue, so that nobody writes to a packet that the
input thread is about to send.  The deltas of the calls then add up to the deltas that were
sent and those that are still to be sent, whatever fails on the way, as long as those that are
held back do not overflow.
-/

namespace MoonlightScarlet.Core.InputStream

open LinkedBlockingQueue (Contents)
open Support.Runs Support.Batching

variable {P K : Type}

theorem motion_read_append (l₁ l₂ : List (Packet K)) :
    motion.read (l₁ ++ l₂) = motion.read l₁ + motion.read l₂ := by
  induction l₂ using List.reverseRecOn with
  | nil =>
      rw [List.append_nil]
      exact (add_zero _).symm
  | append_singleton l₂ packet ih =>
      rw [← List.append_assoc, Receiver.read_snoc, Receiver.read_snoc, ih]
      cases packet with
      | mouseMoveRel deltaX deltaY => exact Prod.ext (add_assoc ..) (add_assoc ..)
      | _ => rfl

theorem motion_read_move (deltaX deltaY : Int16) :
    (motion : Receiver (Packet K) _).read [.mouseMoveRel deltaX deltaY] =
      (deltaX.toInt, deltaY.toInt) :=
  Prod.ext (zero_add _) (zero_add _)

theorem motion_read_snoc_of_ignores {packet : Packet K} (h : motion.Ignores packet)
    (l : List (Packet K)) : motion.read (l ++ [packet]) = motion.read l := by
  rw [Receiver.read_snoc]
  exact h _

/-! ## Sums that fit an `int` -/

/-- The sum of the motion held back and a delta is an `int`. -/
def Fits (held : Int32) (delta : Int16) : Prop :=
  -2 ^ 31 ≤ held.toInt + delta.toInt ∧ held.toInt + delta.toInt < 2 ^ 31

instance (held : Int32) (delta : Int16) : Decidable (Fits held delta) :=
  inferInstanceAs (Decidable (_ ∧ _))

theorem toInt_add_of_range {a b : Int32} (hlow : -2 ^ 31 ≤ a.toInt + b.toInt)
    (hhigh : a.toInt + b.toInt < 2 ^ 31) : (a + b).toInt = a.toInt + b.toInt := by
  rw [Int32.toInt_add]
  exact Int.bmod_eq_of_le (by omega) (by omega)

theorem toInt_add_of_fits {held : Int32} {delta : Int16} (h : Fits held delta) :
    (held + delta.toInt32).toInt = held.toInt + delta.toInt := by
  have hdelta : delta.toInt32.toInt = delta.toInt := Int16.toInt_toInt32 delta
  rw [toInt_add_of_range (by rw [hdelta]; exact h.1) (by rw [hdelta]; exact h.2), hdelta]

theorem splitDelta_sum (delta : Int32) :
    (splitDelta delta).1.toInt + (splitDelta delta).2.1.toInt = delta.toInt := by
  have hlow : -2 ^ 31 ≤ delta.toInt := delta.le_toInt
  have hhigh : delta.toInt < 2 ^ 31 := delta.toInt_lt
  have hmin : (-32768 : Int32).toInt = -32768 := rfl
  have hmax : (32767 : Int32).toInt = 32767 := rfl
  have hstep : (32768 : Int32).toInt = 32768 := rfl
  have hback : (-32767 : Int32).toInt = -32767 := rfl
  unfold splitDelta
  simp only [Int32.lt_iff_toInt_lt, gt_iff_lt, hmin, hmax]
  split_ifs with hless hmore
  · have hrest : (delta + 32768).toInt = delta.toInt + 32768 := by
      rw [toInt_add_of_range (by omega) (by omega), hstep]
    rw [hrest]
    change (-32768 : Int) + (delta.toInt + 32768) = delta.toInt
    omega
  · have hrest : (delta - 32767).toInt = delta.toInt - 32767 := by
      rw [Int32.sub_eq_add_neg, toInt_add_of_range (by omega) (by omega), hback]
      omega
    rw [hrest]
    change (32767 : Int) + (delta.toInt - 32767) = delta.toInt
    omega
  · have hexact : delta.toInt16.toInt = delta.toInt := by
      rw [Int32.toInt_toInt16]
      exact Int.bmod_eq_of_le (by omega) (by omega)
    change delta.toInt16.toInt + 0 = delta.toInt
    omega
/-! ## Who has which holder -/

/-- The packet that the input thread sends is of the kind that it was when it was taken. -/
def InputThread.InPlace (memory : P → Packet K) : InputThread P → Prop
  | .sendingMove holder _ => (memory holder).carrier? = some .relative
  | .sending holder => (memory holder).carrier? ≠ some .relative
  | _ => True

theorem InputThread.InPlace.congr {thread : InputThread P} {memory memory' : P → Packet K}
    (h : thread.InPlace memory) (hsame : ∀ holder, thread.holder? = some holder →
      (memory' holder).carrier? = (memory holder).carrier?) : thread.InPlace memory' := by
  cases thread with
  | sendingMove holder more => exact (hsame holder rfl).trans h
  | sending holder => exact fun hmove => h ((hsame holder rfl).symm.trans hmove)
  | _ => trivial

/-- Every holder has one owner, and the packets that are about to be read are in place. -/
structure Kept (s : State P K) : Prop where
  nodup : (s.holders ++ s.sender.holder?.toList).Nodup
  inPlace : s.thread.InPlace s.memory
  offering : ∀ packet holder, s.sender = .offering packet holder → s.memory holder = packet

namespace Sender.Starts

variable {sender : Sender P K} (h : sender.Starts)

include h

theorem holder?_eq : sender.holder? = none := by
  obtain rfl | ⟨payload, rfl⟩ := h <;> rfl

theorem claim_eq : sender.claim = none := by
  obtain rfl | ⟨payload, rfl⟩ := h <;> rfl

end Sender.Starts

namespace Kept

variable {s : State P K} {holder other : P} {packet : Packet K}

theorem start (memory : P → Packet K) : Kept (start memory) where
  nodup := List.nodup_nil
  inPlace := trivial
  offering := nofun

theorem ne_of_thread (h : Kept s) (hthread : s.thread.holder? = some holder)
    (hsender : s.sender.holder? = some other) : other ≠ holder := by
  have hnodup := h.nodup
  rintro rfl
  rw [State.holders, hthread, hsender] at hnodup
  simp at hnodup

/-- Only the caller goes on, and it gives up its holder. -/
theorem of_caller {t : State P K} (h : Kept s) (hthread : t.thread = s.thread)
    (hqueue : t.packetQueue.elements = s.packetQueue.elements) (hmemory : t.memory = s.memory)
    (hsender : t.sender.holder? = none) : Kept t where
  nodup := by
    have hholders : t.holders = s.holders := by rw [State.holders, hthread, hqueue, State.holders]
    rw [hsender, hholders]
    exact h.nodup.sublist (by simp)
  inPlace := by
    rw [hthread, hmemory]
    exact h.inPlace
  offering := by
    intro packet other hoffering
    rw [hoffering] at hsender
    cases hsender

theorem abandon (h : Kept s) (packet : Packet K) : Kept (s.abandon packet) := by
  cases packet with
  | _ => exact h.of_caller rfl rfl rfl rfl

theorem allocate (h : Kept s) (packet : Packet K) (hsender : s.sender.holder? = none)
    (hholder : holder ∉ s.holders) : Kept { s with sender := .filling packet holder } where
  nodup := by
    have hnodup := h.nodup
    rw [hsender] at hnodup
    simp only [Option.toList_none, List.append_nil] at hnodup
    refine List.nodup_append.mpr ⟨hnodup, List.nodup_singleton _, ?_⟩
    intro a ha b hb
    rw [List.mem_singleton.mp hb]
    rintro rfl
    exact hholder ha
  inPlace := h.inPlace
  offering := nofun

theorem offer (h : Kept s) (hsender : s.sender = .offering packet holder) :
    Kept ({ s with
      packetQueue :=
        { s.packetQueue with
          elements := s.packetQueue.elements ++ [(holder, holder)] } }.offered packet) := by
  have hnodup := h.nodup
  rw [hsender] at hnodup
  cases packet with
  | _ =>
      refine ⟨?_, h.inPlace, nofun⟩
      simpa [State.holders, State.offered, Sender.holder?] using hnodup

/-- Nobody has a holder. -/
theorem of_none {t : State P K} (hthread : t.thread.holder? = none)
    (hqueue : t.packetQueue.elements = []) (hsender : t.sender = .idle)
    (hinPlace : t.thread.InPlace t.memory) : Kept t where
  nodup := by
    rw [State.holders, hthread, hqueue, hsender]
    exact List.nodup_nil
  inPlace := hinPlace
  offering := by
    rw [hsender]
    exact nofun

/-- The input thread goes on with the holder that it has, and writes to no other. -/
theorem of_thread {t : State P K} (h : Kept s) (hthread : s.thread.holder? = some holder)
    (hsame : t.thread.holder? = some holder ∨ t.thread.holder? = none)
    (hqueue : t.packetQueue = s.packetQueue) (hsender : t.sender = s.sender)
    (hmemory : ∀ other, other ≠ holder → t.memory other = s.memory other)
    (hinPlace : t.thread.InPlace t.memory) : Kept t where
  nodup := by
    have hnodup := h.nodup
    rw [State.holders, hthread] at hnodup
    rw [State.holders, hqueue, hsender]
    rcases hsame with hsame | hsame
    · rwa [hsame]
    · rw [hsame]
      exact hnodup.sublist (by simp)
  inPlace := hinPlace
  offering := by
    intro packet other hoffering
    rw [hsender] at hoffering
    have hheld : s.sender.holder? = some other := by rw [hoffering]; rfl
    have hne := h.ne_of_thread hthread hheld
    rw [hmemory other hne]
    exact h.offering packet other hoffering

theorem send (h : Kept s) {next : InputThread P} (more ok : Bool)
    (hholder : s.thread.holder? = some holder)
    (hnext : next.holder? = some holder ∨ next.holder? = none)
    (hinPlace : next.InPlace s.memory) : Kept (s.send holder more next ok) := by
  cases ok with
  | true => exact h.of_thread hholder hnext rfl rfl (fun _ _ => rfl) hinPlace
  | false => exact h.of_thread hholder (.inr rfl) rfl rfl (fun _ _ => rfl) trivial

variable [DecidableEq P]

theorem fill (h : Kept s) (hsender : s.sender = .filling packet holder) :
    Kept (s.fill packet holder) := by
  have hheld : s.sender.holder? = some holder := by rw [hsender]; rfl
  have hfill : Kept { s.write holder packet with sender := .offering packet holder } := by
    refine ⟨?_, h.inPlace.congr fun other hthread => ?_, ?_⟩
    · have hnodup := h.nodup
      rwa [hheld] at hnodup
    · have hne := h.ne_of_thread hthread hheld
      change (Function.update s.memory holder packet other).carrier? = _
      rw [Function.update_of_ne hne.symm]
    · intro packet' other hoffering
      cases hoffering
      exact Function.update_self ..
  cases packet with
  | multiController fields => exact ⟨hfill.nodup, hfill.inPlace, hfill.offering⟩
  | _ => exact hfill

theorem dispatch (h : Kept s) (htaken : s.thread = .taken holder) : Kept (s.dispatch holder) := by
  have hholder : s.thread.holder? = some holder := by rw [htaken]; rfl
  unfold State.dispatch
  cases hpacket : s.memory holder with
  | mouseMoveAbs x y width height =>
      refine h.of_thread hholder (.inl rfl) rfl rfl
        (fun other hne => Function.update_of_ne hne ..) ?_
      change (Function.update s.memory holder _ holder).carrier? ≠ _
      rw [Function.update_self]
      exact nofun
  | mouseMoveRel deltaX deltaY =>
      exact h.of_thread hholder (.inl rfl) rfl rfl (fun _ _ => rfl) trivial
  | multiController fields =>
      refine h.of_thread hholder (.inl rfl) rfl rfl (fun _ _ => rfl) ?_
      change (s.memory holder).carrier? ≠ _
      rw [hpacket]
      exact nofun
  | other payload =>
      refine h.of_thread hholder (.inl rfl) rfl rfl (fun _ _ => rfl) ?_
      change (s.memory holder).carrier? ≠ _
      rw [hpacket]
      exact nofun

theorem split (h : Kept s) (hmoving : s.thread = .moving holder) : Kept (s.split holder) := by
  have hholder : s.thread.holder? = some holder := by rw [hmoving]; rfl
  unfold State.split
  split_ifs
  · exact h.of_thread hholder (.inr rfl) rfl rfl (fun _ _ => rfl) trivial
  · refine h.of_thread hholder (.inl rfl) rfl rfl (fun other hne => Function.update_of_ne hne ..) ?_
    change (Function.update s.memory holder _ holder).carrier? = _
    rw [Function.update_self]
    rfl

end Kept

section Moves

variable [DecidableEq P] {s t : State P K} {label : Label P K}

theorem Move.kept (hmove : Move s label t) (h : Kept s) : Kept t := by
  cases hmove with
  | pass => exact h
  | mouseMove deltaX deltaY hidle =>
      refine h.of_caller rfl rfl rfl ?_
      dsimp only
      split_ifs <;> rfl
  | mousePosition x y width height hidle =>
      refine h.of_caller rfl rfl rfl ?_
      dsimp only [State.mousePosition]
      split_ifs <;> rfl
  | merge event hidle old new holder hcurrent hold hbuttons =>
      refine ⟨h.nodup, h.inPlace.congr fun other _ => ?_, ?_⟩
      · change (Function.update s.memory holder (.multiController new) other).carrier? = _
        rcases eq_or_ne other holder with rfl | hne
        · rw [Function.update_self, hold]
          rfl
        · rw [Function.update_of_ne hne]
      · intro packet other hoffering
        cases hidle.symm.trans hoffering
  | begin event hidle packet hpacket => exact h.of_caller rfl rfl rfl rfl
  | scroll event hidle delta scrolling sender hsender =>
      exact h.of_caller rfl rfl rfl hsender.holder?_eq
  | allocate packet holder hsender hholder =>
      exact h.allocate packet (by rw [hsender]; rfl) hholder
  | allocateFails packet hsender => exact h.abandon packet
  | fill packet holder hsender => exact h.fill hsender
  | offer packet holder hsender => exact h.offer hsender
  | offerScroll payload holder hsender delta scrolling sender hnext =>
      exact (h.offer hsender).of_caller rfl rfl rfl hnext.holder?_eq
  | offerFails packet holder hsender hfull => exact h.abandon packet
  | stop hidle => exact h.of_caller rfl rfl rfl rfl
  | destroy hidle => exact .of_none rfl rfl hidle trivial
  | restart hidle => exact .of_none rfl rfl hidle trivial
  | take hwaiting entry holder rest helements =>
      have hnodup := h.nodup
      rw [State.holders, hwaiting, helements] at hnodup
      exact ⟨hnodup, trivial, h.offering⟩
  | finish hwaiting wake hwake hready hdone =>
      have hnodup := h.nodup
      rw [State.holders, hwaiting] at hnodup
      exact ⟨hnodup, trivial, h.offering⟩
  | dispatch holder htaken => exact h.dispatch htaken
  | split holder hmoving => exact h.split hmoving
  | sendMove holder more ok hthread =>
      exact h.send more ok (by rw [hthread]; rfl) (.inl rfl) trivial
  | send holder more ok hthread => exact h.send more ok (by rw [hthread]; rfl) (.inr rfl) trivial

end Moves

/-! ## The sum of the motion -/

/-- The part of the motion that the input thread has taken and not handed over yet. -/
def InputThread.inFlight (memory : P → Packet K) : InputThread P → List (Packet K)
  | .sendingMove holder _ => [memory holder]
  | _ => []

/-- The motion that has not been sent. -/
def State.unsent (s : State P K) : Int × Int :=
  motion.read (s.thread.inFlight s.memory) + (s.relative.deltaX.toInt, s.relative.deltaY.toInt)

/-- A move leaves the motion that is held back an `int`. -/
def FitsInt (s : State P K) : Label P K → Prop
  | .call (.mouseMove deltaX deltaY) => s.initialized = true →
      Fits s.relative.deltaX deltaX ∧ Fits s.relative.deltaY deltaY
  | _ => True

instance FitsInt.decidable (s : State P K) : ∀ label, Decidable (FitsInt s label)
  | .call (.mouseMove ..) => inferInstanceAs (Decidable (_ → _ ∧ _))
  | .call (.mousePosition ..) | .call (.controller _) | .call (.scroll _) | .call (.other _)
  | .allocate _ | .fill | .offer | .stop | .destroy | .restart | .wait | .dispatch | .split
  | .send _ => .isTrue trivial

/-- What the calls asked for is what was sent and what was not. -/
def Conserved (s : State P K) : Prop :=
  motion.read s.given = motion.read (s.sent.map Prod.fst) + s.unsent

theorem InputThread.inFlight_congr {thread : InputThread P} {memory memory' : P → Packet K}
    (h : ∀ holder, thread.holder? = some holder → memory' holder = memory holder) :
    thread.inFlight memory' = thread.inFlight memory := by
  cases thread with
  | sendingMove holder more => exact congrArg (fun packet => [packet]) (h holder rfl)
  | _ => rfl

theorem ignores_of_not_relative {packet : Packet K} (h : packet.carrier? ≠ some .relative) :
    motion.Ignores packet := by
  cases packet with
  | mouseMoveRel => exact absurd rfl h
  | _ => exact fun _ => rfl

section Moves

variable {s t : State P K} {label : Label P K}

theorem Conserved.of_ignores (h : Conserved s) {packet : Packet K} (hpacket : motion.Ignores packet)
    (hgiven : t.given = s.given ++ [packet]) (hsent : t.sent = s.sent)
    (hunsent : t.unsent = s.unsent) : Conserved t := by
  rw [Conserved, hgiven, motion_read_snoc_of_ignores hpacket, hsent, hunsent]
  exact h

theorem Conserved.of_same (h : Conserved s) (hgiven : t.given = s.given) (hsent : t.sent = s.sent)
    (hunsent : t.unsent = s.unsent) : Conserved t := by
  rw [Conserved, hgiven, hsent, hunsent]
  exact h

theorem Conserved.abandon (h : Conserved s) (packet : Packet K) :
    Conserved (s.abandon packet) := by
  cases packet with
  | _ => exact h.of_same rfl rfl rfl

theorem Conserved.mouseMove (h : Conserved s) {deltaX deltaY : Int16} {dirty : Bool}
    (hfits : Fits s.relative.deltaX deltaX ∧ Fits s.relative.deltaY deltaY)
    (ht : t.relative =
      ⟨s.relative.deltaX + deltaX.toInt32, s.relative.deltaY + deltaY.toInt32, dirty⟩)
    (hgiven : t.given = s.given ++ [.mouseMoveRel deltaX deltaY]) (hsent : t.sent = s.sent)
    (hthread : t.thread = s.thread) (hmemory : t.memory = s.memory) : Conserved t := by
  have hunsent : t.unsent = s.unsent + (deltaX.toInt, deltaY.toInt) := by
    rw [State.unsent, ht, hthread, hmemory, State.unsent, add_assoc]
    dsimp only
    rw [toInt_add_of_fits hfits.1, toInt_add_of_fits hfits.2]
    rfl
  rw [Conserved, hgiven, motion_read_append, motion_read_move, show motion.read s.given = _ from h,
    hsent, hunsent, add_assoc]

theorem Conserved.sendMove (h : Conserved s) {holder : P} {more : Bool} (ok : Bool)
    (hthread : s.thread = .sendingMove holder more) :
    Conserved (s.send holder more (.moving holder) ok) := by
  have hbefore : s.unsent =
      motion.read [s.memory holder] + (s.relative.deltaX.toInt, s.relative.deltaY.toInt) := by
    rw [State.unsent, hthread]
    rfl
  have hafter : (s.send holder more (.moving holder) ok).unsent =
      (s.relative.deltaX.toInt, s.relative.deltaY.toInt) := by
    cases ok with
    | _ => exact zero_add _
  rw [Conserved, hafter]
  simp only [State.send, List.map_append, List.map_cons, List.map_nil]
  rw [motion_read_append, show motion.read s.given = _ from h, hbefore, add_assoc]

theorem Conserved.send (h : Conserved s) (hkept : Kept s) {holder : P} (more ok : Bool)
    (hthread : s.thread = .sending holder) :
    Conserved (s.send holder more .waiting ok) := by
  have hplace := hkept.inPlace
  rw [hthread] at hplace
  have hafter : (s.send holder more .waiting ok).unsent = s.unsent := by
    rw [State.unsent, State.unsent, hthread]
    cases ok with
    | _ => rfl
  rw [Conserved, hafter]
  simp only [State.send, List.map_append, List.map_cons, List.map_nil]
  rw [motion_read_snoc_of_ignores (ignores_of_not_relative hplace)]
  exact h

variable [DecidableEq P]

theorem Conserved.fill (h : Conserved s) (hkept : Kept s) {packet : Packet K} {holder : P}
    (hsender : s.sender = .filling packet holder) : Conserved (s.fill packet holder) := by
  have hunsent : s.thread.inFlight (Function.update s.memory holder packet) =
      s.thread.inFlight s.memory := by
    apply InputThread.inFlight_congr
    intro other hthread
    have hheld : s.sender.holder? = some holder := by rw [hsender]; rfl
    have hne := hkept.ne_of_thread hthread hheld
    exact Function.update_of_ne hne.symm ..
  cases packet with
  | _ =>
      refine h.of_same rfl rfl ?_
      unfold State.unsent
      exact congrArg (fun l => motion.read l + _) hunsent

theorem Kept.inFlight_merge (h : Kept s) {holder : P} {old : MultiController}
    (hold : s.memory holder = .multiController old) (packet : Packet K) :
    s.thread.inFlight (Function.update s.memory holder packet) = s.thread.inFlight s.memory := by
  have hplace := h.inPlace
  cases hthread : s.thread with
  | sendingMove other more =>
      rw [hthread] at hplace
      have hne : other ≠ holder := by
        rintro rfl
        rw [InputThread.InPlace, hold] at hplace
        cases hplace
      simp only [InputThread.inFlight, Function.update_of_ne hne]
  | _ => rfl

theorem Conserved.split (h : Conserved s) {holder : P} (hmoving : s.thread = .moving holder) :
    Conserved (s.split holder) := by
  refine h.of_same ?_ ?_ ?_
  · unfold State.split
    split_ifs <;> rfl
  · unfold State.split
    split_ifs <;> rfl
  · have hbefore : s.unsent = (s.relative.deltaX.toInt, s.relative.deltaY.toInt) := by
      rw [State.unsent, hmoving]
      exact zero_add _
    rw [hbefore]
    unfold State.split
    split_ifs
    · exact zero_add _
    · have hwritten : (s.write holder (.mouseMoveRel (splitDelta s.relative.deltaX).1
          (splitDelta s.relative.deltaY).1)).memory holder =
            .mouseMoveRel (splitDelta s.relative.deltaX).1 (splitDelta s.relative.deltaY).1 :=
        Function.update_self ..
      simp only [State.unsent, InputThread.inFlight, hwritten, motion_read_move]
      exact Prod.ext (splitDelta_sum _) (splitDelta_sum _)

theorem Conserved.dispatch (h : Conserved s) {holder : P} (htaken : s.thread = .taken holder) :
    Conserved (s.dispatch holder) := by
  have hbefore : s.unsent = (s.relative.deltaX.toInt, s.relative.deltaY.toInt) := by
    rw [State.unsent, htaken]
    exact zero_add _
  unfold State.dispatch
  cases s.memory holder with
  | _ => exact h.of_same rfl rfl (hbefore.symm ▸ zero_add _)

theorem Move.conserved (hmove : Move s label t) (hkept : Kept s) (hlabel : FitsInt s label)
    (h : Conserved s) : Conserved t := by
  cases hmove with
  | pass => exact h
  | mouseMove deltaX deltaY hidle hopen =>
      exact h.mouseMove (hlabel hopen) rfl rfl rfl rfl rfl
  | mousePosition x y width height hidle => exact h.of_ignores (fun _ => rfl) rfl rfl rfl
  | merge event hidle old new holder hcurrent hold hbuttons =>
      refine h.of_ignores (fun _ => rfl) rfl rfl ?_
      unfold State.unsent
      exact congrArg (fun l => motion.read l + _) (hkept.inFlight_merge hold _)
  | begin event hidle packet hpacket => exact h.of_same rfl rfl rfl
  | scroll event hidle delta scrolling sender hsender => exact h.of_same rfl rfl rfl
  | allocate packet holder hsender hholder => exact h.of_same rfl rfl rfl
  | allocateFails packet hsender => exact h.abandon packet
  | fill packet holder hsender => exact h.fill hkept hsender
  | offer packet holder hsender =>
      cases packet with
      | mouseMoveRel => exact h.of_same rfl rfl rfl
      | mouseMoveAbs => exact h.of_same rfl rfl rfl
      | _ => exact h.of_ignores (fun _ => rfl) rfl rfl rfl
  | offerScroll payload holder hsender delta scrolling sender hnext =>
      have hignores : motion.Ignores (Packet.other payload) := fun _ => rfl
      exact h.of_ignores hignores rfl rfl rfl
  | offerFails packet holder hsender hfull => exact h.abandon packet
  | stop hidle => exact h.of_same rfl rfl rfl
  | destroy hidle hclosed hreturned =>
      refine h.of_same rfl rfl ?_
      rw [State.unsent, State.unsent]
      rcases hreturned with hthread | hthread <;> rw [hthread] <;> rfl
  | restart => exact (zero_add _).symm
  | take hwaiting entry holder rest helements =>
      refine h.of_same rfl rfl ?_
      rw [State.unsent, State.unsent, hwaiting]
      rfl
  | finish hwaiting wake hwake hready hdone =>
      refine h.of_same rfl rfl ?_
      rw [State.unsent, State.unsent, hwaiting]
      rfl
  | dispatch holder htaken => exact h.dispatch htaken
  | split holder hmoving => exact h.split hmoving
  | sendMove holder more ok hthread => exact h.sendMove ok hthread
  | send holder more ok hthread => exact h.send hkept more ok hthread

end Moves

section Runs

variable [DecidableEq P] {hosts : ℕ → Host K} {memory : P → Packet K} {labels : List (Label P K)}
  {s : State P K}

/-- In every run, whatever fails, the motion of the calls of a connection is the motion that
was sent and the motion that is still to be sent. -/
theorem motion_conserved (hfits : Meets (step hosts) FitsInt (start memory) labels)
    (hrun : run (step hosts) (start memory) labels = some s) :
    motion.read s.given = motion.read (s.sent.map Prod.fst) + s.unsent := by
  have hinvariant : Kept s ∧ Conserved s :=
    invariant_of_meets (I := fun s => Kept s ∧ Conserved s)
      (fun _ _ _ h hlabel hstep =>
        ⟨(step_move hstep).kept h.1, (step_move hstep).conserved h.1 hlabel h.2⟩)
      ⟨Kept.start memory, (zero_add _).symm⟩ hfits hrun
  exact hinvariant.2

end Runs

/-! ## A run -/

/-- A host that needs batched scrolls, and one that does not. -/
def sampleHosts (connection : Nat) : Host Nat where
  sunshine := connection != 0
  needsBatchedScroll := connection == 0
  legacyController _ := 0
  scroll amount := amount.toInt.toNat

def sampleOffer (holder : Nat) : List (Label Nat Nat) := [.allocate (some holder), .fill, .offer]

def sampleController (leftStickX : Int16) : Label Nat Nat :=
  .call (.controller
    { controllerNumber := 1, activeGamepadMask := 2, buttonFlags := 0x1000, leftTrigger := 0
      rightTrigger := 0, leftStickX, leftStickY := 0, rightStickX := 0, rightStickY := 0 })

/-- A connection with a scroll that is sent as two packets. -/
def sampleScroll : List (Label Nat Nat) :=
  .call (.scroll 250) :: sampleOffer 0 ++ sampleOffer 1 ++
    [.stop, .wait, .dispatch, .send true, .wait, .dispatch, .send true, .wait]

/-- Two moves that need two packets, two states of a controller that share one, and a key,
sent after the drain is signalled, in the connection after that. -/
def sampleLabels : List (Label Nat Nat) :=
  sampleScroll ++ [.destroy, .restart] ++
    .call (.mouseMove 30000 (-5)) :: sampleOffer 0 ++
    .call (.mouseMove 30000 7) :: sampleController 5 :: sampleOffer 1 ++
    .call (.other 42) :: sampleOffer 2 ++
    [sampleController 9, .stop, .wait, .dispatch, .split, .send true, .split, .send true, .split,
      .wait, .dispatch, .send true, .wait, .dispatch, .send true, .wait]

example : (run (step sampleHosts) (start fun _ => .other 0) sampleScroll).map
    (fun s => (s.sent, s.batchedScrollDelta)) =
      some ([(.other 120, true), (.other 120, false)], 10) := by
  decide +kernel

def sampleMoves : List (Packet Nat × Bool) :=
  [(.mouseMoveRel 32767 2, true), (.mouseMoveRel 27233 0, false)]

theorem sampleRun : ∃ s, run (step sampleHosts) (start fun _ => .other 0) sampleLabels = some s ∧
    (s.sent.take 2, s.sent.drop 3, s.thread) =
      (sampleMoves, [(.other 42, false)], InputThread.ended) := by
  have hsample : (run (step sampleHosts) (start fun _ => .other 0) sampleLabels).map
      (fun s => (s.sent.take 2, s.sent.drop 3, s.thread)) =
        some (sampleMoves, [(.other 42, false)], InputThread.ended) := by
    decide +kernel
  exact Option.map_eq_some_iff.mp hsample

theorem sampleLabels_fit :
    Meets (step sampleHosts) FitsInt (start fun _ => .other 0) sampleLabels := by
  decide +kernel

theorem motion_conserved_sample : ∃ s : State Nat Nat, s.sent.take 2 = sampleMoves ∧
    motion.read s.given = motion.read (s.sent.map Prod.fst) + s.unsent := by
  obtain ⟨s, hrun, hsample⟩ := sampleRun
  exact ⟨s, congrArg Prod.fst hsample, motion_conserved sampleLabels_fit hrun⟩

end MoonlightScarlet.Core.InputStream
