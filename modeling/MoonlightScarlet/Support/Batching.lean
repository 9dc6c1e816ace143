import MoonlightScarlet.Support.Runs
/-!
# Batched sending

Packets that are given one by one leave in a smaller number.  A packet may be replaced while
it waits, and packets may be gathered in a carrier whose contents are settled only when its
turn comes.  What a receiver makes of the packets that were sent is compared with what it
would have made of the given ones: a packet that must keep its place never overtakes what was
given before it.
-/

namespace Support.Batching

variable {W C V : Type*}

/-! ## Receivers -/

structure Receiver (W V : Type*) where
  init : V
  receive : V → W → V

namespace Receiver

variable (r : Receiver W V) {l l₁ l₂ : List W} {w : W}

/-- What the receiver makes of the packets. -/
def read (l : List W) : V := l.foldl r.receive r.init

def Ignores (w : W) : Prop := ∀ v, r.receive v w = v

/-- Whatever came before, the second packet leaves nothing of the first. -/
def Supersedes (new old : W) : Prop := ∀ v, r.receive (r.receive v old) new = r.receive v new

@[simp] theorem read_snoc (l : List W) (w : W) :
    r.read (l ++ [w]) = r.receive (r.read l) w := by
  simp [read]

theorem read_append_congr (h : r.read l₁ = r.read l₂) (l : List W) :
    r.read (l₁ ++ l) = r.read (l₂ ++ l) := by
  unfold read at *
  rw [List.foldl_append, List.foldl_append, h]

theorem read_append_of_ignores (l₁ : List W) (h : ∀ w ∈ l, r.Ignores w) :
    r.read (l₁ ++ l) = r.read l₁ := by
  induction l generalizing l₁ with
  | nil => rw [List.append_nil]
  | cons w l ih =>
      rw [List.append_cons, ih _ fun w hw => h w (List.mem_cons_of_mem _ hw), read_snoc]
      exact h w List.mem_cons_self _

theorem read_append_cons_of_ignores (l₁ : List W) (h : r.Ignores w) (l : List W) :
    r.read (l₁ ++ w :: l) = r.read (l₁ ++ l) := by
  rw [List.append_cons]
  apply r.read_append_congr
  rw [read_snoc]
  exact h _

end Receiver

/-! ## Pipelines -/

/-- What waits to be sent. -/
inductive Item (W C : Type*)
  | packet (w : W)
  | carrier (c : C)

def Item.packet? : Item W C → Option W
  | .packet w => some w
  | .carrier _ => none

/-- The packets among the items. -/
def packets (items : List (Item W C)) : List W := items.filterMap Item.packet?

section Packets

variable (items : List (Item W C))

@[simp] theorem packets_nil : packets ([] : List (Item W C)) = [] := rfl

@[simp] theorem packets_cons_packet (w : W) :
    packets (.packet w :: items) = w :: packets items := rfl

@[simp] theorem packets_cons_carrier (c : C) : packets (.carrier c :: items) = packets items := rfl

@[simp] theorem packets_append (items' : List (Item W C)) :
    packets (items ++ items') = packets items ++ packets items' := List.filterMap_append

@[simp] theorem packets_map_packet (l : List W) :
    packets (l.map Item.packet : List (Item W C)) = l := by
  induction l with
  | nil => rfl
  | cons w l ih => rw [List.map_cons, packets_cons_packet, ih]

end Packets

/-- What was given and what was sent, what waits, and the carrier that is about to wait. -/
structure Pipeline (W C : Type*) where
  given : List W := []
  sent : List W := []
  items : List (Item W C) := []
  claim : Option C := none

namespace Pipeline

variable (v : Pipeline W C)

/-- The packets that were sent and those that wait. -/
def wires : List W := v.sent ++ packets v.items

end Pipeline

/-- The receivers, the carriers that gather what a receiver sees, and the packets that keep
their place. -/
structure Scheme (W C ι : Type*) (V : ι → Type*) where
  receiver : (i : ι) → Receiver W (V i)
  carries : ι → C → Prop
  ordered : W → Bool
  ignores_ordered : ∀ i w, ordered w = true → (receiver i).Ignores w

variable {ι : Type*} {V : ι → Type*} (S : Scheme W C ι V)

/-- Nothing that the receiver sees is gathered, in a carrier that waits or will wait. -/
def Scheme.Settled (i : ι) (v : Pipeline W C) : Prop :=
  ∀ c, S.carries i c → v.claim ≠ some c ∧ Item.carrier c ∉ v.items

inductive Step (v : Pipeline W C) : Pipeline W C → Prop
  /-- A packet is gathered. -/
  | gather (w : W) (claim : Option C) (hclaim : v.claim = none) (hordered : S.ordered w = false)
      (hcarried : ∀ i, (S.receiver i).Ignores w ∨
        ∃ c, S.carries i c ∧ (Item.carrier c ∈ v.items ∨ claim = some c)) :
      Step v { v with given := v.given ++ [w], claim }
  /-- A packet takes the place of one that waits. -/
  | replace (a b : List (Item W C)) (old new : W)
      (hitems : v.items = a ++ .packet old :: b) (hold : S.ordered old = false)
      (hnew : S.ordered new = false)
      (hreplace : ∀ i, (S.receiver i).Ignores old ∧ (S.receiver i).Ignores new ∨
        (∀ c, ¬S.carries i c) ∧ (∀ w ∈ packets b, (S.receiver i).Ignores w) ∧
          (S.receiver i).Supersedes new old) :
      Step v { v with given := v.given ++ [new], items := a ++ .packet new :: b }
  | enqueue (w : W) (hclaim : v.claim = none) :
      Step v { v with given := v.given ++ [w], items := v.items ++ [.packet w] }
  | enqueueCarrier (c : C) (hclaim : v.claim = some c) :
      Step v { v with items := v.items ++ [.carrier c], claim := none }
  /-- The first carrier turns into the packets that bring its receivers up to date. -/
  | resolve (c : C) (rest : List (Item W C)) (l : List W) (hitems : v.items = .carrier c :: rest)
      (hordered : ∀ w ∈ l, S.ordered w = false)
      (hcarried : ∀ i, S.carries i c →
        (S.receiver i).read v.given = (S.receiver i).read (v.sent ++ l) ∧
          ∀ w ∈ packets rest, (S.receiver i).Ignores w)
      (hothers : ∀ i, ¬S.carries i c → ∀ w ∈ l, (S.receiver i).Ignores w) :
      Step v { v with items := l.map .packet ++ rest }
  /-- A packet with a part of what the first carrier gathered. -/
  | extract (c : C) (rest : List (Item W C)) (w : W) (hitems : v.items = .carrier c :: rest)
      (hordered : S.ordered w = false)
      (hothers : ∀ i, ¬S.carries i c → (S.receiver i).Ignores w) :
      Step v { v with items := .packet w :: .carrier c :: rest }
  | send (w : W) (rest : List (Item W C)) (hitems : v.items = .packet w :: rest) :
      Step v { v with sent := v.sent ++ [w], items := rest }

/-! ## What a receiver has seen -/

/-- A receiver that has seen these packets saw a beginning of what was given, which goes as
far as the packet that comes next. -/
def Scheme.Covers (i : ι) (given seen : List W) (next : W) : Prop :=
  ∃ front, front <+: given ∧ (S.receiver i).read front = (S.receiver i).read seen ∧
    (seen ++ [next]).filter S.ordered <+: front.filter S.ordered

/-- The packets that keep their place are sent in order, each after all that was given before
it. -/
def Scheme.InOrder (given sent : List W) : Prop :=
  ∀ i before w after, sent = before ++ w :: after → S.ordered w = true →
    S.Covers i given before w

variable {S}

theorem Scheme.Covers.mono {i : ι} {given given' seen : List W} {next : W}
    (h : S.Covers i given seen next) (hgiven : given <+: given') :
    S.Covers i given' seen next := by
  obtain ⟨front, hfront, hread⟩ := h
  exact ⟨front, hfront.trans hgiven, hread⟩

theorem Scheme.InOrder.mono {given given' sent : List W} (h : S.InOrder given sent)
    (hgiven : given <+: given') : S.InOrder given' sent :=
  fun i before w after hsent hw => (h i before w after hsent hw).mono hgiven

theorem Scheme.InOrder.nil (given : List W) : S.InOrder given [] := by
  intro i before w after hsent
  simp at hsent

/-- What holds of a pipeline at every time. -/
structure Sound (S : Scheme W C ι V) (v : Pipeline W C) : Prop where
  ordered : v.given.filter S.ordered = v.wires.filter S.ordered
  settled : ∀ i, S.Settled i v → (S.receiver i).read v.given = (S.receiver i).read v.wires
  covered : ∀ i a w b, v.items = a ++ .packet w :: b → S.ordered w = true →
    (∀ c, S.carries i c → Item.carrier c ∉ a) → S.Covers i v.given (v.sent ++ packets a) w
  inOrder : S.InOrder v.given v.sent

theorem Sound.initial : Sound S ({} : Pipeline W C) where
  ordered := rfl
  settled := fun _ _ => rfl
  covered := by
    intro i a w b hitems
    simp at hitems
  inOrder := .nil []

/-! ## What a step preserves -/

section Steps

variable {v : Pipeline W C} {i : ι} {given seen seen' : List W} {w : W}

theorem Scheme.Covers.congr (h : S.Covers i given seen w)
    (hread : (S.receiver i).read seen = (S.receiver i).read seen')
    (hordered : seen.filter S.ordered = seen'.filter S.ordered) : S.Covers i given seen' w := by
  obtain ⟨front, hfront, hseen, hprefix⟩ := h
  refine ⟨front, hfront, hseen.trans hread, ?_⟩
  rwa [List.filter_append, ← hordered, ← List.filter_append]

/-- All that was given covers a packet that waits, for a receiver that is up to date before
it. -/
theorem covers_all {wires after : List W}
    (hordered : given.filter S.ordered = wires.filter S.ordered)
    (hwires : wires = seen ++ w :: after)
    (hread : (S.receiver i).read given = (S.receiver i).read seen) : S.Covers i given seen w := by
  refine ⟨given, List.prefix_refl _, hread, ?_⟩
  have hprefix : seen ++ [w] <+: seen ++ w :: after := ⟨after, (List.append_cons ..).symm⟩
  rw [hordered, hwires]
  exact hprefix.filter _

/-- A receiver is up to date when nothing is claimed and no carrier that waits is its own. -/
theorem settled_of_no_claim (hclaim : v.claim = none)
    (hnone : ∀ c, S.carries i c → Item.carrier c ∉ v.items) : S.Settled i v := by
  intro c hc
  refine ⟨?_, hnone c hc⟩
  rw [hclaim]
  exact (Option.some_ne_none c).symm

/-- A packet that keeps its place stands behind those that do not. -/
theorem split_of_not_ordered {l : List W} {rest a b : List (Item W C)}
    (hordered : ∀ w ∈ l, S.ordered w = false)
    (hsplit : l.map .packet ++ rest = a ++ .packet w :: b) (hw : S.ordered w = true) :
    ∃ a', a = l.map .packet ++ a' ∧ rest = a' ++ .packet w :: b := by
  rcases List.append_eq_append_iff.mp hsplit with ⟨m, rfl, hrest⟩ | ⟨m, hl, hm⟩
  · exact ⟨m, rfl, hrest⟩
  · cases m with
    | nil => exact ⟨[], by rw [hl, List.append_nil, List.append_nil], hm.symm⟩
    | cons first m =>
        obtain ⟨rfl, -⟩ := List.cons.inj hm
        have hmem : Item.packet w ∈ (l.map Item.packet : List (Item W C)) := by simp [hl]
        obtain ⟨w', hw', hsame⟩ := List.mem_map.mp hmem
        cases hsame
        exact absurd hw (by simp [hordered w hw'])

/-- A packet other than the one between two parts stands in the second or in the first. -/
theorem split_around {a b a' b' : List (Item W C)} {w w' : W}
    (hsplit : a ++ .packet w :: b = a' ++ .packet w' :: b') (hne : w ≠ w') :
    (∃ m, a' = a ++ .packet w :: m ∧ b = m ++ .packet w' :: b') ∨
      ∃ m, a = a' ++ .packet w' :: m ∧ b' = m ++ .packet w :: b := by
  rcases List.append_eq_append_iff.mp hsplit with ⟨m, rfl, hm⟩ | ⟨m, rfl, hm⟩
  · cases m with
    | nil =>
        cases hm
        exact absurd rfl hne
    | cons first m =>
        obtain ⟨rfl, hb⟩ := List.cons.inj hm
        exact .inl ⟨m, rfl, hb⟩
  · cases m with
    | nil =>
        cases hm
        exact absurd rfl hne
    | cons first m =>
        obtain ⟨rfl, hb⟩ := List.cons.inj hm
        exact .inr ⟨m, rfl, hb⟩

theorem filter_snoc_of_not_ordered (l : List W) (hw : S.ordered w = false) :
    (l ++ [w]).filter S.ordered = l.filter S.ordered := by
  simp [hw]

theorem Sound.gather (h : Sound S v) {claim : Option C} (hclaim : v.claim = none)
    (hordered : S.ordered w = false)
    (hcarried : ∀ i, (S.receiver i).Ignores w ∨
      ∃ c, S.carries i c ∧ (Item.carrier c ∈ v.items ∨ claim = some c)) :
    Sound S { v with given := v.given ++ [w], claim } where
  ordered := (filter_snoc_of_not_ordered _ hordered).trans h.ordered
  settled := by
    intro i hsettled
    rcases hcarried i with hignores | ⟨c, hc, hitem | hclaimed⟩
    · have hbefore := settled_of_no_claim hclaim fun c hc => (hsettled c hc).2
      rw [Receiver.read_snoc, hignores]
      exact h.settled i hbefore
    · exact absurd hitem (hsettled c hc).2
    · exact absurd hclaimed (hsettled c hc).1
  covered := fun i a w' b hitems hw' hnone =>
    (h.covered i a w' b hitems hw' hnone).mono (List.prefix_append _ _)
  inOrder := h.inOrder.mono (List.prefix_append _ _)

theorem Sound.enqueue (h : Sound S v) (hclaim : v.claim = none) (w : W) :
    Sound S { v with given := v.given ++ [w], items := v.items ++ [.packet w] } where
  ordered := by
    have hwires : v.sent ++ packets (v.items ++ [.packet w]) = v.wires ++ [w] := by
      simp [Pipeline.wires]
    rw [Pipeline.wires, hwires, List.filter_append, h.ordered, List.filter_append]
  settled := by
    intro i hsettled
    have hbefore : S.Settled i v := fun c hc =>
      ⟨(hsettled c hc).1, fun hmem => (hsettled c hc).2 (List.mem_append_left _ hmem)⟩
    have hread := (S.receiver i).read_append_congr (h.settled i hbefore) [w]
    simpa [Pipeline.wires] using hread
  covered := by
    intro i a w' b hitems hw' hnone
    rcases List.eq_nil_or_concat b with rfl | ⟨b, last, rfl⟩
    · obtain ⟨rfl, hlast⟩ := List.append_inj' hitems rfl
      cases hlast
      have hbefore := settled_of_no_claim hclaim hnone
      have hgiven : (v.given ++ [w]).filter S.ordered = (v.wires ++ [w]).filter S.ordered := by
        rw [List.filter_append, h.ordered, List.filter_append]
      apply covers_all hgiven
      · rw [Pipeline.wires]
      · rw [Receiver.read_snoc, S.ignores_ordered i w hw', h.settled i hbefore, Pipeline.wires]
    · rw [List.concat_eq_append, ← List.cons_append, ← List.append_assoc] at hitems
      have hv := (List.append_inj' hitems rfl).1
      exact (h.covered i a w' b hv hw' hnone).mono (List.prefix_append _ _)
  inOrder := h.inOrder.mono (List.prefix_append _ _)

theorem Sound.enqueueCarrier (h : Sound S v) {c : C} (hclaim : v.claim = some c) :
    Sound S { v with items := v.items ++ [.carrier c], claim := none } where
  ordered := by simpa [Pipeline.wires] using h.ordered
  settled := by
    intro i hsettled
    have hbefore : S.Settled i v := by
      intro c' hc'
      constructor
      · intro hclaimed
        rw [hclaim] at hclaimed
        cases hclaimed
        exact (hsettled c hc').2 List.mem_concat_self
      · exact fun hmem => (hsettled c' hc').2 (List.mem_append_left _ hmem)
    simpa [Pipeline.wires] using h.settled i hbefore
  covered := by
    intro i a w' b hitems hw' hnone
    rcases List.eq_nil_or_concat b with rfl | ⟨b, last, rfl⟩
    · cases (List.append_inj' hitems rfl).2
    · rw [List.concat_eq_append, ← List.cons_append, ← List.append_assoc] at hitems
      exact h.covered i a w' b (List.append_inj' hitems rfl).1 hw' hnone
  inOrder := h.inOrder

theorem Sound.send (h : Sound S v) {rest : List (Item W C)} (hitems : v.items = .packet w :: rest) :
    Sound S { v with sent := v.sent ++ [w], items := rest } where
  ordered := by simpa [Pipeline.wires, hitems] using h.ordered
  settled := by
    intro i hsettled
    have hbefore : S.Settled i v := by
      intro c hc
      refine ⟨(hsettled c hc).1, ?_⟩
      rw [hitems]
      simpa using (hsettled c hc).2
    simpa [Pipeline.wires, hitems] using h.settled i hbefore
  covered := by
    intro i a w' b hrest hw' hnone
    have hv : v.items = (.packet w :: a) ++ .packet w' :: b := by
      rw [hitems, show rest = _ from hrest, List.cons_append]
    have hnone' (c : C) (hc : S.carries i c) : Item.carrier c ∉ (.packet w :: a : List _) := by
      simpa using hnone c hc
    simpa using h.covered i _ w' b hv hw' hnone'
  inOrder := by
    intro i before w' after hsent
    refine Runs.forall_split_snoc (P := fun before w' => S.ordered w' = true →
      S.Covers i v.given before w') (h.inOrder i) (fun hw => ?_) hsent
    simpa using h.covered i [] w rest hitems hw fun _ _ => List.not_mem_nil

theorem Sound.extract (h : Sound S v) {c : C} {rest : List (Item W C)}
    (hitems : v.items = .carrier c :: rest) (hordered : S.ordered w = false)
    (hothers : ∀ i, ¬S.carries i c → (S.receiver i).Ignores w) :
    Sound S { v with items := .packet w :: .carrier c :: rest } where
  ordered := by simpa [Pipeline.wires, hitems, hordered] using h.ordered
  settled := by
    intro i hsettled
    have hbefore : S.Settled i v := by
      intro c' hc'
      refine ⟨(hsettled c' hc').1, ?_⟩
      rw [hitems]
      simpa using (hsettled c' hc').2
    have hother : ¬S.carries i c := fun hc => (hbefore c hc).2 (by simp [hitems])
    have hread := h.settled i hbefore
    rw [Pipeline.wires, hitems] at hread
    exact hread.trans ((S.receiver i).read_append_cons_of_ignores _ (hothers i hother) _).symm
  covered := by
    intro i a w' b hsplit hw' hnone
    cases a with
    | nil =>
        cases hsplit
        exact absurd hw' (by simp [hordered])
    | cons first a =>
        obtain ⟨rfl, htail⟩ := List.cons.inj hsplit
        have hother : ¬S.carries i c := by
          intro hc
          cases a with
          | nil => cases htail
          | cons second a =>
              obtain ⟨rfl, -⟩ := List.cons.inj htail
              exact hnone c hc (by simp)
        have hcovers := h.covered i a w' b (hitems.trans htail) hw'
          fun c' hc' hmem => hnone c' hc' (List.mem_cons_of_mem _ hmem)
        refine hcovers.congr ?_ (by simp [hordered])
        exact ((S.receiver i).read_append_cons_of_ignores _ (hothers i hother) _).symm
  inOrder := h.inOrder

theorem Sound.resolve (h : Sound S v) {c : C} {rest : List (Item W C)} {l : List W}
    (hitems : v.items = .carrier c :: rest) (hordered : ∀ w ∈ l, S.ordered w = false)
    (hcarried : ∀ i, S.carries i c →
      (S.receiver i).read v.given = (S.receiver i).read (v.sent ++ l) ∧
        ∀ w ∈ packets rest, (S.receiver i).Ignores w)
    (hothers : ∀ i, ¬S.carries i c → ∀ w ∈ l, (S.receiver i).Ignores w) :
    Sound S { v with items := l.map .packet ++ rest } := by
  have hfilter : l.filter S.ordered = [] := by
    rw [List.filter_eq_nil_iff]
    intro w hw
    simp [hordered w hw]
  have hwires : v.given.filter S.ordered =
      (v.sent ++ packets (l.map Item.packet ++ rest)).filter S.ordered := by
    simpa [Pipeline.wires, hitems, hfilter] using h.ordered
  have hread (i : ι) (hother : ¬S.carries i c) (m : List W) :
      (S.receiver i).read (v.sent ++ m) = (S.receiver i).read (v.sent ++ (l ++ m)) := by
    rw [← List.append_assoc]
    exact (S.receiver i).read_append_congr
      ((S.receiver i).read_append_of_ignores _ (hothers i hother)).symm m
  refine ⟨hwires, ?_, ?_, h.inOrder⟩
  · intro i hsettled
    rw [Pipeline.wires, packets_append, packets_map_packet]
    by_cases hc : S.carries i c
    · obtain ⟨hgiven, hrest⟩ := hcarried i hc
      rw [← List.append_assoc, (S.receiver i).read_append_of_ignores _ hrest]
      exact hgiven
    · have hbefore : S.Settled i v := by
        intro c' hc'
        refine ⟨(hsettled c' hc').1, ?_⟩
        rw [hitems, List.mem_cons]
        rintro (hsame | hmem)
        · cases hsame
          exact hc hc'
        · exact (hsettled c' hc').2 (List.mem_append_right _ hmem)
      have hsent := h.settled i hbefore
      rw [Pipeline.wires, hitems, packets_cons_carrier] at hsent
      exact hsent.trans (hread i hc _)
  · intro i a w' b hsplit hw' hnone
    obtain ⟨a, rfl, hrest⟩ := split_of_not_ordered hordered hsplit hw'
    rw [packets_append, packets_map_packet]
    by_cases hc : S.carries i c
    · obtain ⟨hgiven, hignores⟩ := hcarried i hc
      have hsplit' : v.sent ++ packets (l.map Item.packet ++ rest) =
          v.sent ++ (l ++ packets a) ++ w' :: packets b := by
        simp [hrest]
      refine covers_all hwires hsplit' ?_
      rw [← List.append_assoc, hgiven]
      refine ((S.receiver i).read_append_of_ignores _ fun w hw => hignores w ?_).symm
      rw [hrest, packets_append]
      exact List.mem_append_left _ hw
    · have hnone' (c' : C) (hc' : S.carries i c') :
          Item.carrier c' ∉ (.carrier c :: a : List _) := by
        rw [List.mem_cons]
        rintro (hsame | hmem)
        · cases hsame
          exact hc hc'
        · exact hnone c' hc' (List.mem_append_right _ hmem)
      have hcovers := h.covered i (.carrier c :: a) w' b (by rw [hitems, hrest]; rfl) hw' hnone'
      exact hcovers.congr (hread i hc _) (by simp [hfilter])

theorem Sound.replace (h : Sound S v) {a b : List (Item W C)} {old new : W}
    (hitems : v.items = a ++ .packet old :: b)
    (hold : S.ordered old = false) (hnew : S.ordered new = false)
    (hreplace : ∀ i, (S.receiver i).Ignores old ∧ (S.receiver i).Ignores new ∨
      (∀ c, ¬S.carries i c) ∧ (∀ w ∈ packets b, (S.receiver i).Ignores w) ∧
        (S.receiver i).Supersedes new old) :
    Sound S { v with given := v.given ++ [new], items := a ++ .packet new :: b } := by
  have hwires : (v.given ++ [new]).filter S.ordered =
      (v.sent ++ packets (a ++ .packet new :: b)).filter S.ordered := by
    rw [filter_snoc_of_not_ordered _ hnew, h.ordered]
    simp [Pipeline.wires, hitems, hold, hnew]
  -- What a receiver that sees the packet makes of all that was given.
  have hseen (i : ι) (hcarries : ∀ c, ¬S.carries i c)
      (hignores : ∀ w ∈ packets b, (S.receiver i).Ignores w)
      (hsupersedes : (S.receiver i).Supersedes new old) {m : List W}
      (hm : ∀ w ∈ m, (S.receiver i).Ignores w) :
      (S.receiver i).read (v.given ++ [new]) =
        (S.receiver i).read (v.sent ++ (packets a ++ new :: m)) := by
    have hread := h.settled i fun c hc => absurd hc (hcarries c)
    have hbefore : v.wires = v.sent ++ packets a ++ [old] ++ packets b := by
      simp [Pipeline.wires, hitems]
    have hafter : v.sent ++ (packets a ++ new :: m) = v.sent ++ packets a ++ [new] ++ m := by
      simp
    rw [hbefore, (S.receiver i).read_append_of_ignores _ hignores] at hread
    rw [hafter, (S.receiver i).read_append_of_ignores _ hm, Receiver.read_snoc, hread,
      Receiver.read_snoc, hsupersedes, Receiver.read_snoc]
  refine ⟨hwires, ?_, ?_, h.inOrder.mono (List.prefix_append _ _)⟩
  · intro i hsettled
    rw [Pipeline.wires, packets_append, packets_cons_packet]
    rcases hreplace i with ⟨hignoresOld, hignoresNew⟩ | ⟨hcarries, hignores, hsupersedes⟩
    · have hbefore : S.Settled i v := by
        intro c hc
        refine ⟨(hsettled c hc).1, ?_⟩
        rw [hitems]
        simpa using (hsettled c hc).2
      have hread := h.settled i hbefore
      rw [Pipeline.wires, hitems, packets_append, packets_cons_packet, ← List.append_assoc,
        (S.receiver i).read_append_cons_of_ignores _ hignoresOld] at hread
      rw [Receiver.read_snoc, hignoresNew, hread, ← List.append_assoc,
        (S.receiver i).read_append_cons_of_ignores _ hignoresNew]
    · exact hseen i hcarries hignores hsupersedes hignores
  · intro i a' w' b' hsplit hw' hnone
    rcases split_around hsplit (fun hsame => by simp [← hsame, hnew] at hw') with
      ⟨m, rfl, hb⟩ | ⟨m, ha, rfl⟩
    · rcases hreplace i with ⟨hignoresOld, hignoresNew⟩ | ⟨hcarries, hignores, hsupersedes⟩
      · have hnone' (c : C) (hc : S.carries i c) : Item.carrier c ∉ a ++ .packet old :: m := by
          simpa using hnone c hc
        have hcovers := h.covered i (a ++ .packet old :: m) w' b' (by simp [hitems, hb]) hw' hnone'
        refine (hcovers.congr ?_ (by simp [hold, hnew])).mono (List.prefix_append _ _)
        simp only [packets_append, packets_cons_packet]
        rw [← List.append_assoc, ← List.append_assoc,
          (S.receiver i).read_append_cons_of_ignores _ hignoresOld,
          (S.receiver i).read_append_cons_of_ignores _ hignoresNew]
      · have hsplit' : v.sent ++ packets (a ++ .packet new :: b) =
            v.sent ++ packets (a ++ .packet new :: m) ++ w' :: packets b' := by
          simp [hb]
        refine covers_all hwires hsplit' ?_
        have hm : ∀ w ∈ packets m, (S.receiver i).Ignores w := by
          intro w hw
          apply hignores
          rw [hb, packets_append]
          exact List.mem_append_left _ hw
        rw [packets_append, packets_cons_packet]
        exact hseen i hcarries hignores hsupersedes hm
    · have hv : v.items = a' ++ .packet w' :: (m ++ .packet old :: b) := by
        rw [hitems, ha, List.append_assoc, List.cons_append]
      exact (h.covered i a' w' _ hv hw' hnone).mono (List.prefix_append _ _)

theorem Step.sound {v' : Pipeline W C} (hstep : Step S v v') (h : Sound S v) : Sound S v' := by
  cases hstep with
  | gather w claim hclaim hordered hcarried => exact h.gather hclaim hordered hcarried
  | replace a b old new hitems hold hnew hreplace =>
      exact h.replace hitems hold hnew hreplace
  | enqueue w hclaim => exact h.enqueue hclaim w
  | enqueueCarrier c hclaim => exact h.enqueueCarrier hclaim
  | resolve c rest l hitems hordered hcarried hothers =>
      exact h.resolve hitems hordered hcarried hothers
  | extract c rest w hitems hordered hothers => exact h.extract hitems hordered hothers
  | send w rest hitems => exact h.send hitems

end Steps

end Support.Batching
