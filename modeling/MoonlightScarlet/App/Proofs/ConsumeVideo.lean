import MoonlightScarlet.App.ConsumeVideo
import MoonlightScarlet.Sys.Proofs.VideoFrame
import MoonlightScarlet.Support.Fallible
/-!
# Every pulled frame is completed once

A log of core calls is disciplined when the completions between a frame wait and the
next wait or stop are what the answer of the wait asks for.  Each iteration appends
one wait and its completions; the loop is an induction over its iterations.
-/

namespace MoonlightScarlet.App

open Sys Support.Fallible

/-! ## What a frame wait asks for -/

/-- The handle that the core hands out. -/
def returnedHandle (answer : FrameWait) : Option Handle :=
  if answer.available then answer.frameHandle else none

/-- The frame of the `n`-th iteration went through every step of its variant. -/
def Through (platform : Platform) (n : Nat) (round : Round) : Prop :=
  ∃ unit, round.answer.decodeUnit = some unit ∧ Supported unit.fullLength ∧
    match platform with
    | .host => n = 0 → unit.Intact ∧ isAnnexB (chainBytes unit.bufferList) = true
    | .scarlet => unit.Intact ∧
        round.submit (chainBytes unit.bufferList) unit.presentationTimeUs = .ok () ∧
        (round.dequeueOutput = .ok none ∨ ∃ image,
          round.dequeueOutput = .ok (some (.image image)) ∧ round.presentImage image = .ok ())

/-- The completions that the answer of the `n`-th frame wait asks for. -/
def Owed (platform : Platform) (n : Nat) (round : Round)
    (completed : List (Handle × Int32)) : Prop :=
  match returnedHandle round.answer with
  | none => completed = []
  | some handle =>
      (Through platform n round ∧ completed = [(handle, drOk)]) ∨
        (¬Through platform n round ∧ completed = [(handle, drNeedIdr)])

/-- The completions before the next frame wait or the stop. -/
def completions : List FrameCall → List (Handle × Int32)
  | .completeVideoFrame handle status :: calls => (handle, status) :: completions calls
  | _ => []

/-- The calls for these completions. -/
def completed (owed : List (Handle × Int32)) : List FrameCall :=
  owed.map fun (handle, status) => .completeVideoFrame handle status

def waits : List FrameCall → Nat
  | [] => 0
  | .waitVideoFrame _ :: calls => waits calls + 1
  | _ :: calls => waits calls

/-! ## Disciplined logs -/

section Log

variable (platform : Platform) (rounds : Nat → Round)

/-- A log that begins with the `n`-th frame wait. -/
def Disciplined : Nat → List FrameCall → Prop
  | _, [] => True
  | n, .waitVideoFrame answer :: calls =>
      answer = (rounds n).answer ∧ Owed platform n (rounds n) (completions calls) ∧
        Disciplined (n + 1) calls
  | n, .completeVideoFrame _ _ :: calls => Disciplined n calls
  | _, .stopConnection :: calls => calls = []

variable {platform rounds}

theorem waits_append (xs ys : List FrameCall) : waits (xs ++ ys) = waits xs + waits ys := by
  induction xs with
  | nil => exact (Nat.zero_add _).symm
  | cons call xs ih =>
      cases call with
      | waitVideoFrame answer =>
          simp only [List.cons_append, waits, ih]
          omega
      | _ => simp only [List.cons_append, waits, ih]

/-- What comes after a wait or a stop does not count as completed before it. -/
theorem completions_append {call : FrameCall} (hcall : completions [call] = [])
    (xs ys : List FrameCall) : completions (xs ++ call :: ys) = completions xs := by
  induction xs with
  | nil => cases call <;> simp_all [completions]
  | cons other xs ih =>
      cases other with
      | completeVideoFrame handle status =>
          rw [List.cons_append, completions, completions, ih]
      | _ => rfl

/-- A running log goes on with a wait or a stop. -/
theorem Disciplined.append {n : Nat} {xs ys : List FrameCall} {call : FrameCall}
    (h : Disciplined platform rounds n xs) (hrunning : .stopConnection ∉ xs)
    (hcall : completions [call] = [])
    (hrest : Disciplined platform rounds (n + waits xs) (call :: ys)) :
    Disciplined platform rounds n (xs ++ call :: ys) := by
  induction xs generalizing n with
  | nil => exact hrest
  | cons other xs ih =>
      rw [List.mem_cons, not_or] at hrunning
      obtain ⟨hother, hrunning⟩ := hrunning
      cases other with
      | waitVideoFrame answer =>
          obtain ⟨hanswer, howed, hxs⟩ := h
          refine ⟨hanswer, ?_, ih hxs hrunning ?_⟩
          · show Owed platform n (rounds n) (completions (xs ++ call :: ys))
            rwa [completions_append hcall]
          · rw [waits] at hrest
            rwa [Nat.add_assoc, Nat.add_comm 1]
      | completeVideoFrame handle status => exact ih h hrunning hrest
      | stopConnection => exact absurd rfl hother

theorem Disciplined.served {n : Nat} {calls : List FrameCall}
    (h : Disciplined platform rounds n calls) {before after : List FrameCall}
    {answer : FrameWait} (hcalls : calls = before ++ .waitVideoFrame answer :: after) :
    answer = (rounds (n + waits before)).answer ∧
      Owed platform (n + waits before) (rounds (n + waits before)) (completions after) := by
  subst hcalls
  induction before generalizing n with
  | nil => exact ⟨h.1, h.2.1⟩
  | cons call before ih =>
      cases call with
      | waitVideoFrame answer' =>
          have hnext := ih h.2.2
          rw [waits, ← Nat.add_assoc, Nat.add_right_comm]
          exact hnext
      | completeVideoFrame handle status => exact ih h
      | stopConnection =>
          have hnil : before ++ .waitVideoFrame answer :: after = [] := h
          simp at hnil

theorem Disciplined.stopped {n : Nat} {calls : List FrameCall}
    (h : Disciplined platform rounds n calls) {before after : List FrameCall}
    (hcalls : calls = before ++ .stopConnection :: after) : after = [] := by
  subst hcalls
  induction before generalizing n with
  | nil => exact h
  | cons call before ih =>
      cases call with
      | waitVideoFrame answer => exact ih h.2.2
      | completeVideoFrame handle status => exact ih h
      | stopConnection =>
          have hnil : before ++ .stopConnection :: after = [] := h
          simp at hnil

end Log

/-! ## The calls of one frame -/

/-- A running consumer with these calls. -/
def Running (calls : List FrameCall) (s : Consumer) : Prop :=
  s.calls = calls ∧ s.stopped = false

section Frame

variable {α : Type} {calls : List FrameCall} {frame : VideoFrame} {round : Round}

theorem withCore_complete (status : VideoFrameStatus) {E : String → Consumer → Prop} :
    Triple (Running calls) (withCore (frame.complete status))
      (fun _ => Running (calls ++ [.completeVideoFrame frame.frameHandle status.raw])) E := by
  refine Triple.intro fun s ⟨hcalls, hstopped⟩ => ⟨?_, hstopped⟩
  rw [← hcalls]

theorem withCore_drop (hopen : frame.completed = false) {E : String → Consumer → Prop} :
    Triple (Running calls) (withCore frame.drop)
      (fun _ => Running (calls ++ [.completeVideoFrame frame.frameHandle drNeedIdr])) E := by
  refine Triple.intro fun s ⟨hcalls, hstopped⟩ => ?_
  simp only [VideoFrame.drop, hopen]
  refine ⟨?_, hstopped⟩
  rw [← hcalls]

theorem reject_triple {error : String} {Q : α → Consumer → Prop} :
    Triple (Running calls) (reject frame error) Q fun _ =>
      Running (calls ++ [.completeVideoFrame frame.frameHandle drNeedIdr]) :=
  Triple.bind (withCore_complete .needIdr) fun _ => Triple.throw fun _ h => h

theorem progress_triple (message : String) {E : String → Consumer → Prop} :
    Triple (Running calls) (progress message) (fun _ => Running calls) E :=
  Triple.intro fun _ h => h

theorem finish_triple (counters : Counters) {E : String → Consumer → Prop} :
    Triple (Running calls) (finish frame round counters)
      (fun next s => Running (calls ++ [.completeVideoFrame frame.frameHandle drOk]) s ∧
        next.frameCount = counters.frameCount) E := by
  refine Triple.bind (withCore_complete .complete) fun _ => ?_
  refine Triple.bind (R := fun _ =>
    Running (calls ++ [.completeVideoFrame frame.frameHandle drOk])) ?_
    fun _ => Triple.pure fun _ h => ⟨h, rfl⟩
  unfold reportAudioError
  split
  · exact Triple.pure fun _ h => h
  · split
    · exact Triple.pure fun _ h => h
    · exact Triple.bind (progress_triple _) fun _ => Triple.pure fun _ h => h

end Frame

/-! ## Serving a frame -/

/-- The frame is the one of this answer. -/
structure Pulled (answer : FrameWait) (frame : VideoFrame) : Prop where
  available : answer.available = true
  handle : answer.frameHandle = some frame.frameHandle
  unit : answer.decodeUnit = some frame.decodeUnit
  time : frame.presentationTimeUs = frame.decodeUnit.presentationTimeUs
  unfinished : frame.completed = false

section Serve

variable {calls : List FrameCall} {frame : VideoFrame} {round : Round} {n : Nat}

theorem Pulled.returnedHandle_eq (h : Pulled round.answer frame) :
    returnedHandle round.answer = some frame.frameHandle := by
  rw [returnedHandle, if_pos h.available, h.handle]

theorem Pulled.through_host (h : Pulled round.answer frame) :
    Through .host n round ↔
      (n = 0 → ∃ bytes, frame.copyAccessUnit = .ok bytes ∧ isAnnexB bytes = true) := by
  have hcopied := fun bytes => @copies_iff_intact frame bytes
  constructor
  · rintro ⟨unit, hunit, -, hthrough⟩ hn
    obtain rfl : frame.decodeUnit = unit := Option.some.inj (h.unit.symm.trans hunit)
    exact ⟨_, (hcopied _).mpr ⟨(hthrough hn).1, rfl⟩, (hthrough hn).2⟩
  · intro hthrough
    refine ⟨frame.decodeUnit, h.unit, frame.hsupported, fun hn => ?_⟩
    obtain ⟨bytes, hbytes, hannexB⟩ := hthrough hn
    obtain ⟨hintact, rfl⟩ := (hcopied bytes).mp hbytes
    exact ⟨hintact, hannexB⟩

theorem Pulled.through_scarlet (h : Pulled round.answer frame) :
    Through .scarlet n round ↔
      ∃ bytes, frame.copyAccessUnit = .ok bytes ∧
        round.submit bytes frame.presentationTimeUs = .ok () ∧
        (round.dequeueOutput = .ok none ∨ ∃ image,
          round.dequeueOutput = .ok (some (.image image)) ∧ round.presentImage image = .ok ()) := by
  constructor
  · rintro ⟨unit, hunit, -, hintact, hrest⟩
    obtain rfl : frame.decodeUnit = unit := Option.some.inj (h.unit.symm.trans hunit)
    rw [h.time]
    exact ⟨_, copies_iff_intact.mpr ⟨hintact, rfl⟩, hrest⟩
  · rintro ⟨bytes, hbytes, hrest⟩
    obtain ⟨hintact, rfl⟩ := copies_iff_intact.mp hbytes
    rw [h.time] at hrest
    exact ⟨frame.decodeUnit, h.unit, frame.hsupported, hintact, hrest⟩

theorem saturatingSucc_ne_zero (count : UInt64) : saturatingSucc count ≠ 0 := by
  rw [saturatingSucc, ne_eq, ← UInt64.toNat_inj]
  split_ifs with hmax
  · rw [hmax]
    decide
  · rw [← UInt64.toNat_inj] at hmax
    have hlt := count.toNat_lt
    have hsize : (UInt64.ofNat (UInt64.size - 1)).toNat = 18446744073709551615 := by decide
    have hone : (1 : UInt64).toNat = 1 := rfl
    have hzero : (0 : UInt64).toNat = 0 := rfl
    rw [UInt64.toNat_add]
    omega

/-- The host variant counts its frames, so that only the first is checked. -/
def Counted : Platform → Nat → Counters → Prop
  | .host, n, counters => counters.frameCount = 0 ↔ n = 0
  | .scarlet, _, _ => True

/-- What serving a frame leaves: one completion, and an error unless the frame went
through. -/
def Served (platform : Platform) (n : Nat) (round : Round) (frame : VideoFrame)
    (calls : List FrameCall) (ok : Bool) (s : Consumer) : Prop :=
  (Through platform n round ↔ ok = true) ∧
    Running (calls ++ [.completeVideoFrame frame.frameHandle (if ok then drOk else drNeedIdr)]) s

theorem serveHost_triple (hframe : Pulled round.answer frame) {counters : Counters}
    (hcounted : Counted .host n counters) :
    Triple (Running calls) (serveHost frame round counters)
      (fun next s => Served .host n round frame calls true s ∧ Counted .host (n + 1) next)
      fun _ => Served .host n round frame calls false := by
  have hdone (hthrough : Through .host n round) (counted : Counters)
      (hcount : counted.frameCount ≠ 0) :
      Triple (Running calls) (finish frame round counted)
        (fun next s => Served .host n round frame calls true s ∧ Counted .host (n + 1) next)
        fun _ => Served .host n round frame calls false := by
    refine (finish_triple counted).consequence (fun _ h => h)
      (fun next s ⟨hs, hnext⟩ => ⟨⟨iff_of_true hthrough rfl, hs⟩, ?_⟩) fun _ _ h => h
    exact iff_of_false (hnext ▸ hcount) (Nat.succ_ne_zero n)
  unfold serveHost
  dsimp only
  split_ifs with hfirst
  · have hn : n = 0 := hcounted.mp hfirst
    cases hcopy : frame.copyAccessUnit with
    | error error =>
        have hnot : ¬Through .host n round := by
          rw [hframe.through_host]
          intro h
          obtain ⟨bytes, hbytes, -⟩ := h hn
          rw [hcopy] at hbytes
          cases hbytes
        refine Triple.bind (withCore_drop hframe.unfinished) fun _ => ?_
        exact Triple.throw fun _ h => ⟨iff_of_false hnot nofun, h⟩
    | ok accessUnit =>
        dsimp only
        split_ifs with hannexB
        · have hthrough : Through .host n round :=
            hframe.through_host.mpr fun _ => ⟨accessUnit, hcopy, hannexB⟩
          exact Triple.bind (progress_triple _) fun _ =>
            hdone hthrough _ (saturatingSucc_ne_zero _)
        · have hnot : ¬Through .host n round := by
            rw [hframe.through_host]
            intro h
            obtain ⟨bytes, hbytes, hbytesAnnexB⟩ := h hn
            rw [hcopy] at hbytes
            cases hbytes
            exact hannexB hbytesAnnexB
          exact reject_triple.consequence (fun _ h => h) (fun _ _ h => h)
            fun _ _ h => ⟨iff_of_false hnot nofun, h⟩
  · refine hdone (hframe.through_host.mpr fun hn => absurd (hcounted.mpr hn) hfirst) _
      (saturatingSucc_ne_zero _)

theorem reject_served {α : Type} {platform : Platform} {error : String}
    {Q : α → Consumer → Prop} (hnot : ¬Through platform n round) :
    Triple (Running calls) (reject frame error) Q
      fun _ => Served platform n round frame calls false :=
  reject_triple.consequence (fun _ h => h) (fun _ _ h => h)
    fun _ _ h => ⟨iff_of_false hnot nofun, h⟩

theorem serveScarlet_triple (hframe : Pulled round.answer frame) (counters : Counters) :
    Triple (Running calls) (serveScarlet frame round counters)
      (fun _ => Served .scarlet n round frame calls true)
      fun _ => Served .scarlet n round frame calls false := by
  have hdone (hthrough : Through .scarlet n round) (counters : Counters) :
      Triple (Running calls) (finish frame round counters)
        (fun _ => Served .scarlet n round frame calls true)
        fun _ => Served .scarlet n round frame calls false :=
    (finish_triple counters).consequence (fun _ h => h)
      (fun _ _ hs => ⟨iff_of_true hthrough rfl, hs.1⟩) fun _ _ h => h
  -- A step that failed is not one that the frame went through.
  have hstop : ∀ {error : String}, (∀ bytes, frame.copyAccessUnit = .ok bytes →
        round.submit bytes frame.presentationTimeUs = .ok () →
        ¬(round.dequeueOutput = .ok none ∨ ∃ image,
          round.dequeueOutput = .ok (some (.image image)) ∧
            round.presentImage image = .ok ())) →
      Triple (Running calls) (reject frame error)
        (fun (_ : Counters) => Served .scarlet n round frame calls true)
        fun _ => Served .scarlet n round frame calls false := by
    intro error h
    refine reject_served fun hthrough => ?_
    obtain ⟨bytes, hbytes, hsubmit, hrest⟩ := hframe.through_scarlet.mp hthrough
    exact h bytes hbytes hsubmit hrest
  unfold serveScarlet
  cases hcopy : frame.copyAccessUnit with
  | error error => exact hstop fun bytes hbytes => by cases hcopy.symm.trans hbytes
  | ok accessUnit =>
      dsimp only
      cases hsubmit : round.submit accessUnit frame.presentationTimeUs with
      | error error =>
          refine hstop fun bytes hbytes hok => ?_
          obtain rfl : accessUnit = bytes := Except.ok.inj (hcopy.symm.trans hbytes)
          cases hsubmit.symm.trans hok
      | ok =>
          dsimp only
          have hsteps (h : round.dequeueOutput = .ok none ∨ ∃ image,
              round.dequeueOutput = .ok (some (.image image)) ∧
                round.presentImage image = .ok ()) : Through .scarlet n round :=
            hframe.through_scarlet.mpr ⟨accessUnit, hcopy, hsubmit, h⟩
          cases hdequeue : round.dequeueOutput with
          | error error => exact hstop fun _ _ _ h => by simp [hdequeue] at h
          | ok output =>
              cases output with
              | none => exact hdone (hsteps (Or.inl hdequeue)) counters
              | some decoded =>
                  cases decoded with
                  | other => exact hstop fun _ _ _ h => by simp [hdequeue] at h
                  | image image =>
                      dsimp only
                      cases hpresent : round.presentImage image with
                      | error error =>
                          exact hstop fun _ _ _ h => by simp [hdequeue, hpresent] at h
                      | ok =>
                          have hthrough := hsteps (Or.inr ⟨image, hdequeue, hpresent⟩)
                          dsimp only
                          split_ifs with hone
                          · exact Triple.bind (progress_triple _) fun _ => hdone hthrough _
                          · exact hdone hthrough _

theorem serve_triple {platform : Platform} (hframe : Pulled round.answer frame)
    {counters : Counters} (hcounted : Counted platform n counters) :
    Triple (Running calls) (platform.serve frame round counters)
      (fun next s => Served platform n round frame calls true s ∧ Counted platform (n + 1) next)
      fun _ => Served platform n round frame calls false := by
  cases platform with
  | host => exact serveHost_triple hframe hcounted
  | scarlet =>
      exact (serveScarlet_triple hframe counters).consequence (fun _ h => h)
        (fun _ _ h => ⟨h, trivial⟩) fun _ _ h => h

theorem Served.running {platform : Platform} {ok : Bool} {s : Consumer}
    (h : Served platform n round frame (calls ++ [.waitVideoFrame round.answer]) ok s) :
    Running (calls ++ .waitVideoFrame round.answer ::
      completed [(frame.frameHandle, if ok then drOk else drNeedIdr)]) s := by
  have := h.2
  rwa [List.append_assoc] at this

/-- One completion of the right status settles what the wait asked for. -/
theorem Served.owed {platform : Platform} {ok : Bool} {s : Consumer}
    (h : Served platform n round frame calls ok s) (hframe : Pulled round.answer frame) :
    Owed platform n round [(frame.frameHandle, if ok then drOk else drNeedIdr)] := by
  rw [Owed, hframe.returnedHandle_eq]
  cases ok with
  | false => exact Or.inr ⟨fun hthrough => Bool.noConfusion (h.1.mp hthrough), rfl⟩
  | true => exact Or.inl ⟨h.1.mpr rfl, rfl⟩

end Serve

/-! ## Waiting for a frame -/

section Wait

variable {calls : List FrameCall} {platform : Platform} {n : Nat} {round : Round}

theorem withCore_triple {α : Type} {call : FrameM α} {Q : α → List FrameCall → Prop}
    {E : InvalidVideoFrame → List FrameCall → Prop}
    (h : Triple (fun c => c = calls) call Q E) :
    Triple (Running calls) (withCore call) (fun a s => ∃ next, Q a next ∧ Running next s)
      fun _ s => ∃ error next, E error next ∧ Running next s := by
  refine Triple.intro fun s ⟨hcalls, hstopped⟩ => ?_
  cases hrun : call.run s.calls with
  | ok a next =>
      have hcore : (withCore call).run s = .ok a { s with calls := next } := by
        simp only [EStateM.run, withCore] at hrun ⊢
        rw [hrun]
      rw [hcore]
      exact ⟨next, h.ok hcalls hrun, rfl, hstopped⟩
  | error error next =>
      have hcore : (withCore call).run s = .error error.display { s with calls := next } := by
        simp only [EStateM.run, withCore] at hrun ⊢
        rw [hrun]
      rw [hcore]
      exact ⟨error, next, h.error hcalls hrun, rfl, hstopped⟩

theorem completeVideoFrame_triple (handle : Handle) (status : Int32)
    {E : InvalidVideoFrame → List FrameCall → Prop} :
    Triple (fun c => c = calls) (mlsCompleteVideoFrame handle status)
      (fun _ c => c = calls ++ [.completeVideoFrame handle status]) E :=
  Triple.intro fun _ hc => hc ▸ rfl

/-- Nothing was pulled: the core was not asked, or it answered and what it handed out
was completed. -/
def Unpulled (platform : Platform) (n : Nat) (round : Round) (calls next : List FrameCall) :
    Prop :=
  next = calls ∨ ∃ owed, Owed platform n round owed ∧
    next = calls ++ .waitVideoFrame round.answer :: completed owed

theorem invalid_triple {α : Type} {unit : Option DecodeUnit} {handle : Handle} {message : String}
    (havailable : round.answer.available = true) (hhandle : round.answer.frameHandle = some handle)
    (hunit : round.answer.decodeUnit = unit)
    (hinvalid : ∀ u, unit = some u → ¬Supported u.fullLength) {Q : α → List FrameCall → Prop} :
    Triple (fun c => c = calls ++ [.waitVideoFrame round.answer])
      (do
        mlsCompleteVideoFrame handle drNeedIdr
        throw ⟨message⟩) Q
      fun _ => Unpulled platform n round calls := by
  refine Triple.bind (completeVideoFrame_triple handle drNeedIdr) fun _ => ?_
  refine Triple.throw fun next hnext => Or.inr ⟨[(handle, drNeedIdr)], ?_, ?_⟩
  · have hreturned : returnedHandle round.answer = some handle := by
      rw [returnedHandle, if_pos havailable, hhandle]
    rw [Owed, hreturned]
    refine Or.inr ⟨?_, rfl⟩
    rintro ⟨u, hu, hsupported, -⟩
    exact hinvalid u (hunit.symm.trans hu) hsupported
  · rw [hnext, List.append_assoc]
    rfl

theorem checkedFrame_triple {handle : Handle} {unit : DecodeUnit}
    (havailable : round.answer.available = true) (hhandle : round.answer.frameHandle = some handle)
    (hunit : round.answer.decodeUnit = some unit) :
    Triple (fun c => c = calls ++ [.waitVideoFrame round.answer]) (checkedFrame handle unit)
      (fun frame next => Pulled round.answer frame ∧
        next = calls ++ [.waitVideoFrame round.answer])
      fun _ => Unpulled platform n round calls := by
  unfold checkedFrame
  split
  · next hlength =>
      refine invalid_triple havailable hhandle hunit fun u hu hsupported => ?_
      obtain rfl := Option.some.inj hu
      have := usizeTryFrom_eq_some.mpr ⟨Int.le_of_lt hsupported.1, rfl⟩
      cases hlength.symm.trans this
  · next fullLength hlength =>
      split_ifs with hrange
      · refine invalid_triple havailable hhandle hunit fun u hu hsupported => ?_
        obtain rfl := Option.some.inj hu
        exact (supported_iff_in_range hlength).mp hsupported hrange
      · exact Triple.pure fun next hnext => ⟨⟨havailable, hhandle, hunit, rfl, rfl⟩, hnext⟩

theorem waitForVideoFrame_triple (platform : Platform) (n : Nat) :
    Triple (fun c => c = calls) (Connection.waitForVideoFrame round.ended round.answer)
      (fun pulled next =>
        match pulled with
        | none => Unpulled platform n round calls next
        | some frame => Pulled round.answer frame ∧
            next = calls ++ [.waitVideoFrame round.answer])
      fun _ => Unpulled platform n round calls := by
  unfold Connection.waitForVideoFrame
  split_ifs with hended
  · exact Triple.pure fun _ h => Or.inl h
  have hwait : Triple (fun c => c = calls) (mlsWaitVideoFrame round.answer)
      (fun result next => next = calls ++ [.waitVideoFrame round.answer] ∧
        result = if round.answer.available then
          (true, round.answer.frameHandle, round.answer.decodeUnit) else (false, none, none))
      fun _ => Unpulled platform n round calls := by
    refine Triple.bind (R := fun _ c => c = calls ++ [.waitVideoFrame round.answer])
      (Triple.intro fun _ hc => hc ▸ rfl) fun _ => ?_
    split_ifs <;> exact Triple.pure fun _ h => ⟨h, rfl⟩
  refine Triple.bind hwait fun result => Triple.and_pre ?_
  rintro rfl
  cases havailable : round.answer.available with
  | false =>
      refine Triple.pure fun next hnext => Or.inr ⟨[], ?_, hnext⟩
      have hreturned : returnedHandle round.answer = none := by
        rw [returnedHandle, havailable]
        rfl
      rw [Owed, hreturned]
  | true =>
      dsimp only [if_true]
      cases hhandle : round.answer.frameHandle with
      | none =>
          refine Triple.throw fun next hnext => Or.inr ⟨[], ?_, hnext⟩
          have hreturned : returnedHandle round.answer = none := by
            rw [returnedHandle, if_pos havailable, hhandle]
          rw [Owed, hreturned]
      | some handle =>
          cases hunit : round.answer.decodeUnit with
          | none => exact invalid_triple havailable hhandle hunit nofun
          | some unit =>
              refine Triple.bind (checkedFrame_triple havailable hhandle hunit) fun frame => ?_
              exact Triple.pure fun _ h => h

end Wait

/-! ## The loop -/

section Loop

variable {platform : Platform} {rounds : Nat → Round}

theorem completions_completed (owed : List (Handle × Int32)) :
    completions (completed owed) = owed := by
  induction owed with
  | nil => rfl
  | cons entry owed ih => exact congrArg (entry :: ·) ih

theorem waits_completed (owed : List (Handle × Int32)) : waits (completed owed) = 0 := by
  induction owed with
  | nil => rfl
  | cons entry owed ih => exact ih

theorem disciplined_completed (n : Nat) (owed : List (Handle × Int32)) :
    Disciplined platform rounds n (completed owed) := by
  induction owed with
  | nil => exact trivial
  | cons entry owed ih => exact ih

/-- The log before the `n`-th iteration, whose frame wait is the `n`-th. -/
structure LogOf (platform : Platform) (rounds : Nat → Round) (n : Nat)
    (calls : List FrameCall) : Prop where
  disciplined : Disciplined platform rounds 0 calls
  running : .stopConnection ∉ calls
  count : waits calls = n
  start : completions calls = []

theorem LogOf.nil : LogOf platform rounds 0 [] := ⟨trivial, List.not_mem_nil, rfl, rfl⟩

theorem LogOf.iteration {n : Nat} {calls : List FrameCall} (h : LogOf platform rounds n calls)
    {owed : List (Handle × Int32)} (howed : Owed platform n (rounds n) owed) :
    LogOf platform rounds (n + 1)
      (calls ++ .waitVideoFrame (rounds n).answer :: completed owed) where
  disciplined := by
    refine h.disciplined.append h.running rfl ?_
    rw [Nat.zero_add, h.count]
    exact ⟨rfl, (completions_completed owed).symm ▸ howed, disciplined_completed _ owed⟩
  running := by
    simp [h.running, completed]
  count := by
    rw [waits_append, h.count, waits, waits_completed]
  start := by
    rw [completions_append rfl, h.start]

/-- A running consumer whose log ends before some iteration. -/
def Consumed (platform : Platform) (rounds : Nat → Round) (s : Consumer) : Prop :=
  ∃ n calls, LogOf platform rounds n calls ∧ Running calls s

theorem LogOf.unpulled {n : Nat} {calls next : List FrameCall} {s : Consumer}
    (h : LogOf platform rounds n calls) (hnext : Unpulled platform n (rounds n) calls next)
    (hs : Running next s) : Consumed platform rounds s := by
  rcases hnext with rfl | ⟨owed, howed, rfl⟩
  · exact ⟨n, next, h, hs⟩
  · exact ⟨n + 1, _, h.iteration howed, hs⟩

theorem consumeLoop_triple (fuel : Nat) {n : Nat} {calls : List FrameCall}
    (h : LogOf platform rounds n calls) {counters : Counters}
    (hcounted : Counted platform n counters) :
    Triple (Running calls) (consumeLoop platform rounds fuel n counters)
      (fun _ => Consumed platform rounds) fun _ => Consumed platform rounds := by
  induction fuel generalizing n calls counters with
  | zero => exact Triple.pure fun _ hs => ⟨n, calls, h, hs⟩
  | succ fuel ih =>
      unfold consumeLoop
      split_ifs with hstop
      · exact Triple.pure fun _ hs => ⟨n, calls, h, hs⟩
      have hwait := (withCore_triple (waitForVideoFrame_triple platform n)).consequence
        (fun _ hs => hs) (fun _ _ hs => hs) fun _ s ⟨_, next, hnext, hs⟩ => h.unpulled hnext hs
      refine Triple.bind hwait fun pulled => ?_
      cases pulled with
      | none => exact Triple.pure fun s ⟨next, hnext, hs⟩ => h.unpulled hnext hs
      | some frame =>
          have hserve (hframe : Pulled (rounds n).answer frame) :
              Triple (Running (calls ++ [.waitVideoFrame (rounds n).answer]))
                (do
                  let counters ← platform.serve frame (rounds n) counters
                  consumeLoop platform rounds fuel (n + 1) counters)
                (fun _ => Consumed platform rounds) fun _ => Consumed platform rounds := by
            have hbody : Triple (Running (calls ++ [.waitVideoFrame (rounds n).answer]))
                (platform.serve frame (rounds n) counters)
                (fun next s => Running (calls ++ .waitVideoFrame (rounds n).answer ::
                    completed [(frame.frameHandle, drOk)]) s ∧
                  (Owed platform n (rounds n) [(frame.frameHandle, drOk)] ∧
                    Counted platform (n + 1) next))
                fun _ => Consumed platform rounds :=
              (serve_triple hframe hcounted).consequence (fun _ hs => hs)
                (fun next s ⟨hserved, hnext⟩ => ⟨hserved.running, hserved.owed hframe, hnext⟩)
                fun _ s hserved => ⟨n + 1, _, h.iteration (hserved.owed hframe), hserved.running⟩
            exact Triple.bind hbody fun next => Triple.and_pre fun ⟨howed, hnext⟩ =>
              ih (h.iteration howed) hnext
          exact (Triple.and_pre hserve).consequence
            (fun s ⟨next, ⟨hframe, hnext⟩, hs⟩ => ⟨hnext ▸ hs, hframe⟩)
            (fun _ _ hs => hs) fun _ _ hs => hs

theorem openDecoder_triple (client : Client) (setup : VideoSetup) {calls : List FrameCall} :
    Triple (Running calls) (openDecoder client setup) (fun _ => Running calls)
      fun _ => Running calls := by
  have hthrow (result : Except String Unit) :
      Triple (Running calls) (propagate result) (fun _ => Running calls)
        fun _ => Running calls := by
    cases result with
    | error error => exact Triple.throw fun _ h => h
    | ok => exact Triple.pure fun _ h => h
  unfold openDecoder
  cases client.recommendedInputBufferLen maxCodedAccessUnit with
  | none => exact Triple.throw fun _ h => h
  | some inputLen =>
      cases client.recommendedNv12OutputBufferLen setup.width setup.height with
      | none => exact Triple.throw fun _ h => h
      | some outputLen =>
          exact Triple.bind (hthrow _) fun _ => Triple.bind (hthrow _) fun _ =>
            Triple.bind (progress_triple _) fun _ => hthrow _

theorem consumeVideo_triple (client : Client) (setup : VideoSetup) (fuel : Nat) :
    Triple (Running []) (consumeVideo platform client setup rounds fuel)
      (fun _ => Consumed platform rounds) fun _ => Consumed platform rounds := by
  cases platform with
  | host => exact consumeLoop_triple fuel LogOf.nil (iff_of_true rfl rfl)
  | scarlet =>
      refine Triple.bind ((openDecoder_triple client setup).consequence (fun _ h => h)
        (fun _ _ h => h) fun _ s h => ⟨0, [], LogOf.nil, h⟩) fun _ => ?_
      exact consumeLoop_triple fuel LogOf.nil trivial

/-- The log of a run, which the stop ends. -/
theorem disciplined_stop {s : Consumer} (h : Consumed platform rounds s) :
    Disciplined platform rounds 0 s.stop.stop.calls ∧ completions s.stop.stop.calls = [] := by
  obtain ⟨n, calls, hlog, hcalls, hstopped⟩ := h
  have hstop : s.stop.stop.calls = calls ++ [.stopConnection] := by
    simp [Consumer.stop, hstopped, hcalls]
  rw [hstop, completions_append rfl]
  exact ⟨hlog.disciplined.append hlog.running rfl rfl, hlog.start⟩

theorem runStream_disciplined (client : Client) (videoSetup : Option VideoSetup)
    (bitrateKbps : UInt32) (terminationError : Option Int32) (fuel : Nat) :
    let calls :=
      (runStream platform client videoSetup bitrateKbps rounds terminationError fuel).2.calls
    Disciplined platform rounds 0 calls ∧ completions calls = [] := by
  unfold runStream
  cases videoSetup with
  | none => exact ⟨rfl, rfl⟩
  | some setup =>
      dsimp only
      split_ifs with hformat
      · exact ⟨rfl, rfl⟩
      have hrunning : ∀ messages, Running [] { messages } := fun _ => ⟨rfl, rfl⟩
      have hconsume : Triple (Running []) (consumeVideo platform client setup rounds fuel) _ _ :=
        consumeVideo_triple client setup fuel
      split
      · next s hrun =>
          obtain ⟨n, calls, hlog, hcalls, -⟩ := hconsume.ok (hrunning _) hrun
          rw [hcalls]
          exact ⟨hlog.disciplined, hlog.start⟩
      · next error s hrun => exact disciplined_stop (hconsume.error (hrunning _) hrun)
      · next s hrun => exact disciplined_stop (hconsume.ok (hrunning _) hrun)

end Loop

/-- In every run of either variant, the handles that the answer of a frame wait hands
out are completed once each, before the next frame wait and before the stop, with
`DR_OK` exactly when the frame went through every step; nothing is completed before
the first wait or after the stop. -/
theorem frames_completed_once (platform : Platform) (client : Client)
    (videoSetup : Option VideoSetup) (bitrateKbps : UInt32) (rounds : Nat → Round)
    (terminationError : Option Int32) (fuel : Nat) :
    let calls :=
      (runStream platform client videoSetup bitrateKbps rounds terminationError fuel).2.calls
    completions calls = [] ∧
    (∀ before answer after, calls = before ++ .waitVideoFrame answer :: after →
      answer = (rounds (waits before)).answer ∧
        Owed platform (waits before) (rounds (waits before)) (completions after)) ∧
    ∀ before after, calls = before ++ .stopConnection :: after → after = [] := by
  intro calls
  obtain ⟨hdisciplined, hstart⟩ : Disciplined platform rounds 0 calls ∧ completions calls = [] :=
    runStream_disciplined client videoSetup bitrateKbps terminationError fuel
  refine ⟨hstart, fun before answer after hcalls => ?_,
    fun before after hcalls => hdisciplined.stopped hcalls⟩
  have h := hdisciplined.served hcalls
  rwa [Nat.zero_add] at h

end MoonlightScarlet.App
