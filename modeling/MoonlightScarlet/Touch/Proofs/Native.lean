import MoonlightScarlet.Touch.Host
import MoonlightScarlet.Support.Leases
/-!
# Native contacts are the pointers of the host

A tracked contact leases a pointer id to its owner.  `Routed` lists what one
`route` call can do to the leases and which packet it delivers with that; the
leases then agree with the host along every session.
-/

namespace MoonlightScarlet.Touch

open Sys Support.Runs Support.Leases

variable {F : Type}

/-- The pointer ids in use, each with the contact that holds it. -/
def TouchInput.leases (input : TouchInput F) : List (UInt32 × Owner) :=
  input.contacts.map fun contact => (contact.remoteId, contact.owner)

/-- The effect of routing a change of `owner` while native touch is used. -/
inductive Routed (owner : Owner) (leases : List (UInt32 × Owner)) :
    List (Sent F) → List (UInt32 × Owner) → Prop
  | kept : Routed owner leases [] leases
  | down (id : UInt32) (x y : F) (hid : id < 10) (hfree : id ∉ leases.map Prod.fst)
      (hnew : owner ∉ leases.map Prod.snd) :
      Routed owner leases [.touch .down id x y] (leases ++ [(id, owner)])
  | moved (id : UInt32) (x y : F) (hlease : (id, owner) ∈ leases) :
      Routed owner leases [.touch .move id x y] leases
  | ended (index : Nat) (id : UInt32) (phase : TouchEventType) (x y : F)
      (hlease : leases[index]? = some (id, owner)) (hphase : phase = .up ∨ phase = .cancel) :
      Routed owner leases [.touch phase id x y] (leases.eraseIdx index)

/-! ## Inversion of `route` -/

theorem begin_routed {input : TouchInput F} {change : TouchChange} {sink : TouchSink F}
    (point : Option (F × F)) (hexisting : input.existing change = none)
    (hnative : input.native ≠ some false) (hsink : sink.supportsTouch ≠ .ok false) :
    let outcome := input.begin change point sink
    Routed change.owner input.leases outcome.delivered outcome.input.leases ∧
      (outcome.input.native = input.native ∨
        input.native = none ∧ outcome.input.native = some true) ∧
      (outcome.input.contacts = input.contacts ∨ outcome.input.native = some true) := by
  unfold TouchInput.begin
  rcases point with _ | ⟨x, y⟩
  · exact ⟨.kept, Or.inl rfl, Or.inl rfl⟩
  dsimp only
  cases hanswer : input.native.elim sink.supportsTouch .ok with
  | error error => exact ⟨.kept, Or.inl rfl, Or.inl rfl⟩
  | ok native =>
      have hnow : native = true ∧ (input.native = some true ∨ input.native = none) := by
        cases hsome : input.native with
        | none =>
            rw [hsome] at hanswer
            cases native with
            | true => simp
            | false => exact absurd hanswer hsink
        | some value =>
            rw [hsome] at hanswer hnative
            cases hanswer
            cases native with
            | true => simp
            | false => exact absurd rfl hnative
      obtain ⟨rfl, hbefore⟩ := hnow
      have hkeeps : some true = input.native ∨ input.native = none ∧ some true = some true := by
        rcases hbefore with h | h <;> simp [h]
      dsimp only
      rw [if_neg (by simp)]
      cases hfree : freeRemoteId input.contacts with
      | none => exact ⟨.kept, hkeeps, Or.inl rfl⟩
      | some id =>
          obtain ⟨hid, hunused⟩ := freeRemoteId_some hfree
          dsimp only
          rw [if_pos rfl]
          rcases attempt_cases sink (.touch .down id x y) with ⟨-, hsent⟩ | ⟨error, -, hfailed⟩
          · rw [hsent]
            refine ⟨?_, hkeeps, Or.inr rfl⟩
            simp only [TouchInput.leases, List.map_append]
            refine Routed.down id x y hid ?_ ?_
            · simpa using fun contact hcontact => hunused contact hcontact
            · simpa using fun contact hcontact => existing_none hexisting contact hcontact
          · rw [hfailed]
            exact ⟨.kept, hkeeps, Or.inl rfl⟩

theorem follow_routed {input : TouchInput F} {change : TouchChange} {sink : TouchSink F}
    {index : Fin input.contacts.length} (point : Option (F × F))
    (hexisting : input.existing change = some index) (hphase : change.phase ≠ .down)
    (hnative : input.native = some true) :
    let outcome := input.follow index change point sink
    Routed change.owner input.leases outcome.delivered outcome.input.leases := by
  have howner : input.contacts[index].owner = change.owner := existing_some hexisting
  have hlease : input.leases[(index : Nat)]? =
      some (input.contacts[index].remoteId, change.owner) := by
    simp [TouchInput.leases, ← howner]
  have hset : ∀ position : F × F, TouchInput.leases ⟨input.native, input.contacts.set index
      { input.contacts[index] with position := position }⟩ = input.leases := by
    intro position
    simp only [TouchInput.leases, List.map_set]
    have hself := List.set_getElem_self (i := index)
      (by simp : (index : Nat) < (input.contacts.map fun c => (c.remoteId, c.owner)).length)
    simpa [Contact.owner] using hself
  unfold TouchInput.follow
  dsimp only
  generalize point.getD input.contacts[index].position = position
  rw [TouchSink.follow, if_pos hnative]
  rcases attempt_cases sink (.touch change.phase.remote input.contacts[index].remoteId
    position.1 position.2) with ⟨-, hsent⟩ | ⟨error, -, hfailed⟩
  · rw [hsent]
    have hended : ∀ phase, phase = .up ∨ phase = .cancel →
        Routed change.owner input.leases
          [Sent.touch phase input.contacts[index].remoteId position.1 position.2]
          (TouchInput.leases ⟨input.native, input.contacts.eraseIdx index⟩) := by
      intro phase hphase
      rw [show TouchInput.leases ⟨input.native, input.contacts.eraseIdx index⟩ =
        input.leases.eraseIdx index from (List.eraseIdx_map ..).symm]
      exact .ended index _ phase _ _ hlease hphase
    cases hchange : change.phase with
    | down => exact absurd hchange hphase
    | move =>
        rw [show (TouchPhase.move.ending && _) = false from rfl, if_neg (by simp), hset]
        exact .moved _ _ _ (List.mem_of_getElem? hlease)
    | up => exact hended .up (Or.inl rfl)
    | cancel => exact hended .cancel (Or.inr rfl)
  · rw [hfailed, show (_ && Except.isOk (Except.error error)) = false from Bool.and_false _,
      if_neg (by simp), hset]
    exact .kept

section Route

variable [F32 F]

theorem route_routed {input : TouchInput F} {sink : TouchSink F} (change : TouchChange)
    (viewport video : UInt32 × UInt32) (hnative : input.native ≠ some false)
    (hanswered : input.contacts ≠ [] → input.native = some true)
    (hsink : sink.supportsTouch ≠ .ok false) :
    let outcome := input.route change viewport video sink
    Routed change.owner input.leases outcome.delivered outcome.input.leases ∧
      (outcome.input.native = input.native ∨
        input.native = none ∧ outcome.input.native = some true) ∧
      (outcome.input.contacts ≠ [] → outcome.input.native = some true) := by
  unfold TouchInput.route
  dsimp only
  generalize videoPosition (F := F) change.x change.y viewport video (change.phase ≠ .down) = point
  have hkept : Routed (F := F) change.owner input.leases [] input.leases ∧
      (input.native = input.native ∨ input.native = none ∧ input.native = some true) ∧
      (input.contacts ≠ [] → input.native = some true) :=
    ⟨.kept, Or.inl rfl, hanswered⟩
  cases hexisting : input.existing change with
  | none =>
      by_cases hphase : change.phase = .down
      · rw [if_pos hphase, if_neg (by simp)]
        obtain ⟨hrouted, hnext, hcontacts⟩ := begin_routed point hexisting hnative hsink
        refine ⟨hrouted, hnext, fun hne => ?_⟩
        rcases hcontacts with hcontacts | hcontacts
        · rw [hcontacts] at hne
          rcases hnext with h | h
          · rw [h, hanswered hne]
          · exact h.2
        · exact hcontacts
      · rw [if_neg hphase]
        exact hkept
  | some index =>
      by_cases hphase : change.phase = .down
      · rw [if_pos hphase, if_pos (by simp)]
        exact hkept
      · rw [if_neg hphase]
        have htracked : input.native = some true :=
          hanswered (List.ne_nil_of_length_pos (Nat.zero_lt_of_lt index.isLt))
        exact ⟨follow_routed point hexisting hphase htracked, Or.inl rfl, fun _ => htracked⟩

end Route

/-! ## Sessions -/

/-- What every session with native touch keeps: the leases are proper, they are
what the host has down, and the host was never sent anything unexpected. -/
structure Tracked (session : Session F) : Prop where
  notFallback : session.input.native ≠ some false
  answered : session.input.contacts ≠ [] → session.input.native = some true
  small : ∀ id ∈ session.input.leases.map Prod.fst, id < 10
  proper : Proper session.input.leases
  held : Held session.input.leases (pointersAfter session.delivered)
  expected : ∀ before d after, session.delivered = before ++ d :: after →
    (pointersAfter before).Expects d

theorem Tracked.init : Tracked ({} : Session F) where
  notFallback := by simp
  answered := by simp
  small := by simp [TouchInput.leases]
  proper := .nil
  held := .nil
  expected := by simp

/-- One routed change keeps the leases in step with the host. -/
theorem Routed.tracked {owner : Owner} {leases next : List (UInt32 × Owner)}
    {packets : List (Sent F)} (h : Routed owner leases packets next)
    {delivered : List (Delivery F)} (hsmall : ∀ id ∈ leases.map Prod.fst, id < 10)
    (hproper : Proper leases) (hheld : Held leases (pointersAfter delivered))
    (hexpected : ∀ before d after, delivered = before ++ d :: after →
      (pointersAfter before).Expects d) :
    let delivered := delivered ++ packets.map fun packet => ⟨some owner, packet⟩
    (∀ id ∈ next.map Prod.fst, id < 10) ∧ Proper next ∧
      Held next (pointersAfter delivered) ∧
      ∀ before d after, delivered = before ++ d :: after →
        (pointersAfter before).Expects d := by
  cases h with
  | kept =>
      rw [List.map_nil, List.append_nil]
      exact ⟨hsmall, hproper, hheld, hexpected⟩
  | down id x y hid hfree hnew =>
      have hexpects : (pointersAfter delivered).Expects
          (⟨some owner, .touch .down id x y⟩ : Delivery F) := hheld.free hfree
      refine ⟨?_, hproper.grant hfree hnew, ?_, fun before d after =>
        forall_split_snoc hexpected hexpects⟩
      · simpa [or_imp, forall_and] using ⟨by simpa using hsmall, hid⟩
      · rw [pointersAfter_append]
        exact hheld.grant hfree owner
  | moved id x y hlease =>
      have hexpects : (pointersAfter delivered).Expects
          (⟨some owner, .touch .move id x y⟩ : Delivery F) :=
        ⟨owner, rfl, (hheld id owner).mpr hlease⟩
      refine ⟨hsmall, hproper, ?_, fun before d after =>
        forall_split_snoc hexpected hexpects⟩
      rw [pointersAfter_append]
      exact hheld
  | ended index id phase x y hlease hphase =>
      have hdown : pointersAfter delivered id = some owner :=
        (hheld id owner).mpr (List.mem_of_getElem? hlease)
      have hexpects : (pointersAfter delivered).Expects
          (⟨some owner, .touch phase id x y⟩ : Delivery F) := by
        rcases hphase with rfl | rfl <;> exact ⟨owner, rfl, hdown⟩
      have hheld := hheld.revoke hproper hlease
      refine ⟨?_, hproper.revoke index, ?_, fun before d after =>
        forall_split_snoc hexpected hexpects⟩
      · intro id' hid'
        rw [← List.eraseIdx_map] at hid'
        exact hsmall id' (List.mem_of_mem_eraseIdx hid')
      · rw [pointersAfter_append]
        rcases hphase with rfl | rfl <;> exact hheld

variable [F32 F]

theorem step_tracked {session next : Session F} {op : Op F}
    (hsink : op.sink.supportsTouch ≠ .ok false) (h : Tracked session)
    (hstep : session.step op = some next) :
    Tracked next ∧ (session.input.contacts ≠ [] →
      next.input.native = session.input.native ∨
        (∃ sink, op = .releaseTo sink) ∧ next.input.contacts = []) := by
  cases op with
  | route change viewport video sink =>
      rw [Op.sink] at hsink
      obtain ⟨hrouted, hnative, hanswered⟩ :=
        route_routed change viewport video h.notFallback h.answered hsink
      obtain ⟨hsmall, hproper, hheld, hexpected⟩ :=
        hrouted.tracked h.small h.proper h.held h.expected
      cases hstep
      refine ⟨⟨?_, hanswered, hsmall, hproper, hheld, hexpected⟩, fun hne => ?_⟩
      · rcases hnative with hsame | ⟨-, hnow⟩
        · rw [hsame]
          exact h.notFallback
        · simp [hnow]
      · rcases hnative with hsame | ⟨hnone, -⟩
        · exact Or.inl hsame
        · simp [h.answered hne] at hnone
  | releaseTo sink =>
      simp only [Session.step, Option.ite_none_right_eq_some, Option.some.injEq] at hstep
      obtain ⟨hok, rfl⟩ := hstep
      cases hcontacts : session.input.contacts with
      | nil =>
          have hsame : session.input.releaseTo sink = ⟨session.input, [], .ok ()⟩ := by
            simp [TouchInput.releaseTo, hcontacts]
          rw [hsame, List.map_nil, List.append_nil]
          exact ⟨h, fun hne => absurd rfl hne⟩
      | cons contact contacts =>
          have hnative : session.input.native = some true := h.answered (by simp [hcontacts])
          have hrelease : session.input.releaseTo sink =
              ⟨{}, (sink.attempt (.touch .cancelAll 0 F32.zero F32.zero)).delivered,
                (sink.attempt (.touch .cancelAll 0 F32.zero F32.zero)).result⟩ := by
            simp [TouchInput.releaseTo, hcontacts, hnative]
          rw [hrelease] at hok ⊢
          rcases attempt_cases sink (.touch .cancelAll 0 F32.zero F32.zero) with
            ⟨-, hsent⟩ | ⟨error, -, hfailed⟩
          · rw [hsent]
            have hexpects : (pointersAfter session.delivered).Expects
              (⟨none, .touch .cancelAll 0 F32.zero F32.zero⟩ : Delivery F) := trivial
            refine ⟨⟨by simp, by simp, by simp [TouchInput.leases], .nil, ?_,
              fun before d after => forall_split_snoc h.expected hexpects⟩,
              fun _ => Or.inr ⟨⟨sink, rfl⟩, rfl⟩⟩
            dsimp only
            rw [pointersAfter_append]
            exact .nil
          · rw [hfailed] at hok
            cases hok

/-- With native touch the pointers down on the host are the tracked contacts, under
distinct ids below ten, and every packet is one that the host expects. -/
theorem native_contacts_are_pointers {ops : List (Op F)} {session : Session F}
    (hsinks : ∀ op ∈ ops, op.sink.supportsTouch ≠ .ok false)
    (hrun : run Session.step {} ops = some session) :
    (∀ id, (pointersAfter session.delivered id).isSome ↔
      id ∈ session.input.contacts.map Contact.remoteId) ∧
    (session.input.contacts.map Contact.remoteId).Nodup ∧
    (∀ contact ∈ session.input.contacts, contact.remoteId < 10) ∧
    (session.input.contacts.map Contact.owner).Nodup ∧
    (∀ before d after, session.delivered = before ++ d :: after →
      (pointersAfter before).Expects d) ∧
    (session.input.contacts ≠ [] → session.input.native.isSome) ∧
    ∀ op next, op.sink.supportsTouch ≠ .ok false → session.step op = some next →
      session.input.contacts ≠ [] →
        next.input.native = session.input.native ∨
          (∃ sink, op = .releaseTo sink) ∧ next.input.contacts = [] := by
  have h : Tracked session := invariant_of_meets
    (fun s op t hs hsink hstep => (step_tracked hsink hs hstep).1)
    .init (Meets.of_forall hsinks _) hrun
  have hids : session.input.leases.map Prod.fst =
      session.input.contacts.map Contact.remoteId := by
    simp [TouchInput.leases]
  have howners : session.input.leases.map Prod.snd =
      session.input.contacts.map Contact.owner := by
    simp [TouchInput.leases]
  refine ⟨fun id => hids ▸ h.held.isSome_iff id, hids ▸ h.proper.ids, ?_,
    howners ▸ h.proper.owners, h.expected, fun hne => ?_,
    fun op next hsink hstep => (step_tracked hsink h hstep).2⟩
  · have := h.small
    rw [hids] at this
    simpa using this
  · rw [h.answered hne, Option.isSome_some]

theorem native_contacts_are_pointers_two_fingers :
    let sink : TouchSink Rat := ⟨.ok true, fun _ => .ok ()⟩
    let down (id : UInt64) : Op Rat :=
      .route ⟨0, id, .down, 400, 400⟩ (800, 800) (1920, 1080) sink
    ∃ session, run Session.step {} [down 1, down 2] = some session ∧
      session.input.contacts.map Contact.remoteId = [0, 1] ∧
      (pointersAfter session.delivered 1).isSome := by
  intro sink down
  have hrun : run Session.step {} [down 1, down 2] = some _ := rfl
  have hsinks : ∀ op ∈ [down 1, down 2], op.sink.supportsTouch ≠ .ok false := by
    simp [down, sink, Op.sink]
  exact ⟨_, hrun, by decide +kernel,
    ((native_contacts_are_pointers hsinks hrun).1 1).mpr (by decide +kernel)⟩

end MoonlightScarlet.Touch
