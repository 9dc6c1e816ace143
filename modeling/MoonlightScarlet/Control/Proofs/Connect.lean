import MoonlightScarlet.Control.Connect
import MoonlightScarlet.Control.Proofs.Pairing
/-!
# The connection protocol

A run of `connect` opens with the public answer of the host and its answer over HTTPS.
The handshake begins only when the second does not take the client for paired, on an
idle host and with a PIN that was shown; a host that is returned has named its
applications to a client that it takes for paired.
-/

namespace MoonlightScarlet.Control

open Support.Fallible Support.Runs

/-! ## Rules -/

/-- A rule for all starting points, applied in the middle of a run. -/
theorem nested_triple {α : Type} {x : ControlM α} {R : α → List Event → Prop}
    {Q : List Event → Prop}
    (h : ∀ start, Triple (Sofar start []) x
      (fun a trace => ∃ events, Sofar start events trace ∧ R a events) (Failed start Q))
    (start : Trace) (new : List Event) :
    Triple (Sofar start new) x
      (fun a trace => ∃ events, Sofar start (new ++ events) trace ∧ R a events)
      (Failed start fun all => ∃ events, all = new ++ events ∧ Q events) := by
  refine .intro fun middle hmiddle => ?_
  have hshift {events : List Event} {trace : Trace} (hevents : Sofar middle events trace) :
      Sofar start (new ++ events) trace := by
    rw [Sofar, hevents, hmiddle, List.append_assoc]
  have hstart : Sofar middle [] middle := (List.append_nil _).symm
  cases hrun : x.run middle with
  | ok a trace =>
      obtain ⟨events, hevents, hR⟩ := (h middle).ok hstart hrun
      exact ⟨events, hshift hevents, hR⟩
  | error failure trace =>
      obtain ⟨herror, events, hevents, hQ⟩ := (h middle).error hstart hrun
      exact ⟨herror, new ++ events, hshift hevents, events, rfl, hQ⟩

section Ok

variable {α β : Type} {start : Trace} {new : List Event} {R : β → Trace → Prop}
  {E : Failure → Trace → Prop}

/-- A dropped error leaves its events in the trace. -/
theorem ok?_triple {x : ControlM α} {S : α → Trace → Prop} {Q : List Event → Prop}
    (h : Triple (Sofar start new) x S (Failed start Q)) :
    Triple (Sofar start new) (ok? x)
      (fun a? trace => (∃ a, a? = some a ∧ S a trace) ∨
        a? = none ∧ ∃ events, Sofar start events trace ∧ Q events) E := by
  refine .intro fun middle hmiddle => ?_
  cases hrun : x middle with
  | ok a trace =>
      have hok : ok? x middle = .ok (some a) trace := by simp only [ok?, hrun]
      rewrite [EStateM.run, hok]
      exact .inl ⟨a, rfl, h.ok hmiddle hrun⟩
  | error failure trace =>
      obtain ⟨⟨error, rfl⟩, hevents⟩ := h.error hmiddle hrun
      have hok : ok? x middle = .ok none trace := by simp only [ok?, hrun]
      rewrite [EStateM.run, hok]
      exact .inr ⟨rfl, hevents⟩

end Ok

/-! ## What a run may send -/

/-- What `{:04}` leaves of a number below 10000. -/
def IsPin (pin : String) : Prop :=
  pin.toList.length = 4 ∧ ∀ c ∈ pin.toList, c.isDigit = true

/-- The host takes this client for paired. -/
def Knows (lib : Libraries) (server : ServerInfo) (xml : String) : Prop :=
  parseServerInfo lib.parseXml xml = .ok server ∧ server.paired = true

section Protocol

variable (client : GameStreamClient) (lib : Libraries) (urls : UrlLibrary) (world : World)
  (address : String) (endpoint : Endpoint)

def publicRequest : Request :=
  { endpoint, scheme := "http", port := endpoint.httpPort, command := "serverinfo"
    uniqueId := client.identity.uniqueId, arguments := [], timeout := requestTimeout }

def httpsRequest (httpsPort : UInt16) (command : String) : Request :=
  { endpoint, scheme := "https", port := httpsPort, command
    uniqueId := client.identity.uniqueId, arguments := [], timeout := requestTimeout }

/-- The events up to the answer over HTTPS, which is asked for at the port that the public
answer names. -/
def openingEvents (xml : String) (server : ServerInfo) (reply : Except ControlError String) :
    List Event :=
  [.progress .fetchingServerInfo, .exchange ⟨publicRequest client endpoint, .ok xml⟩,
    .exchange ⟨httpsRequest client endpoint server.httpsPort "serverinfo", reply⟩]

/-- The run opened like this: `server` is the public answer. -/
def Opened (server : ServerInfo) (reply : Except ControlError String)
    (opening : List Event) : Prop :=
  Endpoint.parse urls address = .ok endpoint ∧ ∃ xml,
    parseServerInfo lib.parseXml xml = .ok server ∧
    opening = openingEvents client endpoint xml server reply

/-- What the handshake has behind it: an idle host that does not know this client, and a
PIN that was shown. -/
structure MayPair (server : ServerInfo) (pin : String) (opening : List Event) : Prop where
  opened : ∃ reply, Opened client lib urls address endpoint server reply opening ∧
    ∀ xml answer, reply = .ok xml → ¬Knows lib answer xml
  idle : server.currentGame = 0
  pin : IsPin pin

/-- A request of the handshake comes after the PIN, the one with the secret after a proof
of the host that it knows the PIN; the list is asked of a host that knows this client. -/
def Proper (before : List Event) : Event → Prop
  | .progress _ => True
  | .exchange exchange =>
      (exchange.request.command = "pair" ∨ exchange.request.Discloses →
        ∃ endpoint server pin opening handshake,
          MayPair client lib urls address endpoint server pin opening ∧
          before = opening ++ .progress (.waitingForPin pin) :: handshake ∧
          ProvenFirst client lib endpoint server pin handshake (.exchange exchange)) ∧
      (exchange.request.command = "applist" →
        ∃ endpoint port xml server,
          .exchange ⟨httpsRequest client endpoint port "serverinfo", .ok xml⟩ ∈ before ∧
          Knows lib server xml ∧
          exchange.request = httpsRequest client endpoint server.httpsPort "applist")

def ConnectsProperly (events : List Event) : Prop :=
  ∀ before event after, events = before ++ event :: after →
    Proper client lib urls address before event

/-- The host knew this client: nothing but its answers and the list. -/
def ConnectedKnown (host : ConnectedHost) (events : List Event) : Prop :=
  ∃ server opening xml list,
    Opened client lib urls address host.endpoint server (.ok xml) opening ∧
    Knows lib host.server xml ∧ parseApplications lib.parseXml list = .ok host.applications ∧
    events = opening ++ [.progress .fetchingApplications,
      .exchange ⟨httpsRequest client host.endpoint host.server.httpsPort "applist", .ok list⟩]

/-- The handshake succeeded with the host, and the host knows this client since. -/
def ConnectedNewly (host : ConnectedHost) (events : List Event) : Prop :=
  ∃ server pin opening handshake xml list,
    MayPair client lib urls address host.endpoint server pin opening ∧
    Completed client lib host.endpoint server pin handshake ∧
    Knows lib host.server xml ∧ parseApplications lib.parseXml list = .ok host.applications ∧
    events = opening ++ .progress (.waitingForPin pin) :: handshake ++
      [.progress .fetchingApplications,
        .exchange ⟨httpsRequest client host.endpoint server.httpsPort "serverinfo", .ok xml⟩,
        .exchange ⟨httpsRequest client host.endpoint host.server.httpsPort "applist", .ok list⟩]

/-! ## Every request is proper -/

section Steps

variable {client lib urls address endpoint} {events : List Event}

theorem ConnectsProperly.nil : ConnectsProperly client lib urls address [] := by
  intro before event after h
  simp at h

theorem ConnectsProperly.snoc {event : Event} (h : ConnectsProperly client lib urls address events)
    (hevent : Proper client lib urls address events event) :
    ConnectsProperly client lib urls address (events ++ [event]) := by
  intro before x after hsplit
  exact forall_split_snoc h hevent hsplit

theorem ConnectsProperly.report (h : ConnectsProperly client lib urls address events)
    (progress : ConnectProgress) :
    ConnectsProperly client lib urls address (events ++ [.progress progress]) :=
  h.snoc trivial

/-- A request that neither pairs nor lists. -/
theorem ConnectsProperly.other {request : Request} {reply : Except ControlError String}
    (h : ConnectsProperly client lib urls address events)
    (hcommand : request.command ≠ "pair" ∧ request.command ≠ "applist")
    (harguments : request.arguments = []) :
    ConnectsProperly client lib urls address (events ++ [.exchange ⟨request, reply⟩]) := by
  refine h.snoc ⟨?_, fun hlist => absurd hlist hcommand.2⟩
  rintro (hpair | ⟨secret, hsecret⟩)
  · exact absurd hpair hcommand.1
  · rw [harguments] at hsecret
    cases hsecret

theorem ConnectsProperly.answer {port : UInt16} {reply : Except ControlError String}
    (h : ConnectsProperly client lib urls address events) :
    ConnectsProperly client lib urls address
      (events ++ [.exchange ⟨httpsRequest client endpoint port "serverinfo", reply⟩]) :=
  h.other ⟨(by decide : "serverinfo" ≠ "pair"), (by decide : "serverinfo" ≠ "applist")⟩ rfl

theorem ConnectsProperly.list {port : UInt16} {xml : String} {server : ServerInfo}
    {reply : Except ControlError String} (h : ConnectsProperly client lib urls address events)
    (hmem : .exchange ⟨httpsRequest client endpoint port "serverinfo", .ok xml⟩ ∈ events)
    (hknows : Knows lib server xml) :
    ConnectsProperly client lib urls address (events ++
      [.exchange ⟨httpsRequest client endpoint server.httpsPort "applist", reply⟩]) := by
  refine h.snoc ⟨?_, fun _ => ⟨endpoint, port, xml, server, hmem, hknows, rfl⟩⟩
  rintro (hpair | ⟨secret, hsecret⟩)
  · exact absurd hpair (by decide : "applist" ≠ "pair")
  · cases hsecret

/-- The events of the handshake keep what is shown of them alone. -/
theorem ConnectsProperly.handshake {server : ServerInfo} {pin : String}
    {opening handshake : List Event} (h : ConnectsProperly client lib urls address opening)
    (hpair : MayPair client lib urls address endpoint server pin opening)
    (hguard : Guarded client lib endpoint server pin handshake) :
    ConnectsProperly client lib urls address
      (opening ++ [.progress (.waitingForPin pin)] ++ handshake) := by
  intro before event after hsplit
  refine forall_split_append (h.report _) ?_ hsplit
  intro before event after hhandshake
  obtain ⟨hpairing, hproven⟩ := hguard before event after hhandshake
  cases event with
  | progress progress => exact trivial
  | exchange exchange =>
      have hcommand : exchange.request.command = "pair" := hpairing
      refine ⟨fun _ => ⟨endpoint, server, pin, opening, before, hpair, ?_, hproven⟩, ?_⟩
      · rw [List.append_assoc, List.singleton_append]
      · intro hlist
        rw [hcommand] at hlist
        exact absurd hlist (by decide)

end Steps

/-! ## The parts of a run -/

section Parts

variable {start : Trace} {new : List Event}

/-- A request and the two ways in which it ends. -/
theorem request_triple (request : Request) :
    Triple (Sofar start new) (world.request request)
      (fun xml => Sofar start (new ++ [.exchange ⟨request, .ok xml⟩]))
      (Failed start fun events =>
        ∃ error, events = new ++ [.exchange ⟨request, .error error⟩]) := by
  refine .intro fun trace htrace => ?_
  have hrun : (world.request request).run trace =
      (ofExcept (world.host trace.events request)).run
        (trace.log (.exchange ⟨request, world.host trace.events request⟩)) := rfl
  rw [hrun]
  cases world.host trace.events request with
  | ok xml => exact htrace.log _
  | error error => exact ⟨⟨error, rfl⟩, _, htrace.log _, error, rfl⟩

/-- A request whose answer is parsed. -/
theorem parsed_triple {α : Type} (request : Request) (parse : String → Except ControlError α) :
    Triple (Sofar start new) (world.request request >>= fun xml => ofExcept (parse xml))
      (fun a trace => ∃ xml,
        Sofar start (new ++ [.exchange ⟨request, .ok xml⟩]) trace ∧ parse xml = .ok a)
      (Failed start fun events => ∃ reply, events = new ++ [.exchange ⟨request, reply⟩] ∧
        ∀ xml a, reply = .ok xml → parse xml ≠ .ok a) := by
  refine .bind ((request_triple world request).consequence (fun _ h => h) (fun _ _ h => h) ?_)
    fun xml => ?_
  · rintro failure trace ⟨herror, events, hevents, error, rfl⟩
    exact ⟨herror, _, hevents, _, rfl, nofun⟩
  · cases hparse : parse xml with
    | ok a => exact .pure fun trace htrace => ⟨xml, htrace, hparse⟩
    | error error =>
        refine failed_triple ⟨_, rfl, ?_⟩
        rintro _ a ⟨⟩ ha
        cases hparse.symm.trans ha

theorem authenticated_triple (port : UInt16) :
    Triple (Sofar start new) (client.authenticatedServerInfo lib world endpoint port)
      (fun server trace => ∃ xml,
        Sofar start (new ++
          [.exchange ⟨httpsRequest client endpoint port "serverinfo", .ok xml⟩]) trace ∧
        parseServerInfo lib.parseXml xml = .ok server)
      (Failed start fun events => ∃ reply,
        events = new ++ [.exchange ⟨httpsRequest client endpoint port "serverinfo", reply⟩] ∧
        ∀ xml answer, reply = .ok xml → parseServerInfo lib.parseXml xml ≠ .ok answer) :=
  parsed_triple world (httpsRequest client endpoint port "serverinfo")
    (parseServerInfo lib.parseXml)

theorem applications_triple (port : UInt16) :
    Triple (Sofar start new) (client.applications lib world endpoint port)
      (fun applications trace => ∃ list,
        Sofar start (new ++
          [.exchange ⟨httpsRequest client endpoint port "applist", .ok list⟩]) trace ∧
        parseApplications lib.parseXml list = .ok applications)
      (Failed start fun events => ∃ reply,
        events = new ++ [.exchange ⟨httpsRequest client endpoint port "applist", reply⟩] ∧
        ∀ list applications, reply = .ok list →
          parseApplications lib.parseXml list ≠ .ok applications) :=
  parsed_triple world (httpsRequest client endpoint port "applist")
    (parseApplications lib.parseXml)

/-- The handshake with the request that clears up after it. -/
theorem pair_triple (server : ServerInfo) (pin : String) (start : Trace) :
    Triple (Sofar start []) (client.pair lib world endpoint server pin)
      (fun _ trace => ∃ events, Sofar start events trace ∧
        Guarded client lib endpoint server pin events ∧
        Completed client lib endpoint server pin events)
      (Failed start fun events => ∃ inner reply,
        Guarded client lib endpoint server pin inner ∧
        events = inner ++ [.exchange ⟨unpairRequest client endpoint, reply⟩]) := by
  have htriple := pairInner_triple client lib endpoint server pin world
  refine .intro fun first hfirst => ?_
  have hsame {events : List Event} {trace : Trace} (h : Sofar first events trace) :
      Sofar start events trace := by
    rw [Sofar, h, hfirst, List.append_nil]
  have hstart : Sofar first [] first := (List.append_nil _).symm
  cases hinner : client.pairInner lib world endpoint server pin first with
  | ok value trace =>
      obtain ⟨events, hevents, hdone⟩ := (htriple first).ok hstart hinner
      have hpair : client.pair lib world endpoint server pin first = .ok () trace := by
        unfold GameStreamClient.pair
        rewrite [hinner]
        rfl
      rewrite [EStateM.run, hpair]
      exact ⟨events, hsame hevents, hdone⟩
  | error failure trace =>
      obtain ⟨⟨error, rfl⟩, events, hevents, hguard⟩ := (htriple first).error hstart hinner
      obtain ⟨reply, hran⟩ := pair_of_error client lib endpoint server pin world hinner hevents
      unfold Ran at hran
      rewrite [EStateM.run]
      cases hpair : client.pair lib world endpoint server pin first with
      | ok value last =>
          rw [hpair] at hran
          cases hran.1
      | error failure last =>
          rw [hpair] at hran
          obtain ⟨hfailure, hlast⟩ := hran
          cases hfailure
          exact ⟨⟨error, rfl⟩, _, hsame hlast, events, reply, hguard, rfl⟩

/-- What is left of the answer over HTTPS tells whether the host knows this client. -/
theorem known_triple {E : Failure → Trace → Prop} (port : UInt16) :
    Triple (Sofar start new) (ok? (client.authenticatedServerInfo lib world endpoint port))
      (fun answer trace => ∃ reply,
        Sofar start
          (new ++ [.exchange ⟨httpsRequest client endpoint port "serverinfo", reply⟩]) trace ∧
        ∀ server, answer.filter ServerInfo.paired = some server ↔
          ∃ xml, reply = .ok xml ∧ Knows lib server xml) E := by
  refine (ok?_triple (authenticated_triple client lib world endpoint port)).consequence
    (fun _ h => h) ?_ (fun _ _ h => h)
  rintro answer trace (⟨known, rfl, xml, htrace, hknown⟩ | ⟨rfl, events, htrace, reply, rfl, hno⟩)
  · refine ⟨.ok xml, htrace, fun server => ?_⟩
    rw [Option.filter_eq_some_iff]
    constructor
    · rintro ⟨⟨⟩, hpaired⟩
      exact ⟨xml, rfl, hknown, hpaired⟩
    · rintro ⟨xml', ⟨⟩, hserver, hpaired⟩
      exact ⟨congrArg some (Except.ok.inj (hknown.symm.trans hserver)), hpaired⟩
  · refine ⟨reply, htrace, fun server => ⟨nofun, ?_⟩⟩
    rintro ⟨xml, hxml, hserver, -⟩
    exact absurd hserver (hno xml server hxml)

theorem isPin_pinText (bytes : Vector UInt8 2) : IsPin (pinText bytes) := by
  have hlength : (Nat.toDigits 10
      ((bytes[0].toNat * 256 + bytes[1].toNat) % 10000)).length ≤ 4 :=
    (Nat.length_toDigits_le_iff (by decide) (by decide)).mpr (Nat.mod_lt _ (by decide))
  unfold IsPin pinText
  dsimp only
  rw [String.toList_ofList]
  constructor
  · rw [List.length_leftpad]
    omega
  · intro c hc
    rcases List.mem_append.mp hc with hzero | hdigit
    · rw [(List.mem_replicate.mp hzero).2]
      rfl
    · exact Nat.isDigit_of_mem_toDigits (by decide) (by decide) hdigit

theorem connectUnpaired_triple {server : ServerInfo} {reply : Except ControlError String}
    {opening : List Event} (hproper : ConnectsProperly client lib urls address opening)
    (hopened : Opened client lib urls address endpoint server reply opening)
    (hunknown : ∀ xml answer, reply = .ok xml → ¬Knows lib answer xml) :
    Triple (Sofar start opening) (client.connectUnpaired lib world endpoint server)
      (fun host trace => host.newlyPaired = true ∧ ∃ events, Sofar start events trace ∧
        ConnectsProperly client lib urls address events ∧
        ConnectedNewly client lib urls address host events)
      (Failed start (ConnectsProperly client lib urls address)) := by
  unfold GameStreamClient.connectUnpaired
  by_cases hidle : server.currentGame ≠ 0
  · simp only [if_pos hidle, throw_bind]
    exact failed_triple hproper
  simp only [if_neg hidle]
  refine randomBytes_bind fun bytes => report_bind ?_
  generalize hpin : pinText bytes = pin
  have hpair : MayPair client lib urls address endpoint server pin opening :=
    ⟨⟨reply, hopened, hunknown⟩, Decidable.of_not_not hidle, hpin ▸ isPin_pinText bytes⟩
  refine .bind ((nested_triple (pair_triple client lib world endpoint server pin) start
    (opening ++ [.progress (.waitingForPin pin)])).consequence (fun _ h => h) (fun _ _ h => h) ?_)
    fun _ => .exists_pre fun handshake => .and_pre fun ⟨hguard, hcompleted⟩ => ?_
  · rintro failure trace ⟨herror, _, htrace, _, rfl, inner, unpaired, hguard, rfl⟩
    refine ⟨herror, _, htrace, ?_⟩
    rw [← List.append_assoc]
    exact (hproper.handshake hpair hguard).other
      ⟨(by decide : "unpair" ≠ "pair"), (by decide : "unpair" ≠ "applist")⟩ rfl
  have hproper := (hproper.handshake hpair hguard).report .fetchingApplications
  refine report_bind ?_
  refine .bind ((authenticated_triple client lib world endpoint server.httpsPort).consequence
    (fun _ h => h) (fun _ _ h => h) ?_)
    fun known => .exists_pre fun xml => .and_pre fun hknown => ?_
  · rintro failure trace ⟨herror, events, htrace, answer, rfl, -⟩
    exact ⟨herror, _, htrace, hproper.answer⟩
  by_cases hpaired : known.paired = true
  · simp only [hpaired, Bool.not_true, Bool.false_eq_true, if_false]
    refine .bind ((applications_triple client lib world endpoint known.httpsPort).consequence
      (fun _ h => h) (fun _ _ h => h) ?_)
      fun applications => .exists_pre fun list => .and_pre fun hlist => ?_
    · rintro failure trace ⟨herror, events, htrace, answer, rfl, -⟩
      exact ⟨herror, _, htrace, hproper.answer.list List.mem_concat_self ⟨hknown, hpaired⟩⟩
    · refine .pure fun trace htrace => ⟨rfl, _, htrace, ?_, ?_⟩
      · exact hproper.answer.list List.mem_concat_self ⟨hknown, hpaired⟩
      · exact ⟨server, pin, opening, handshake, xml, list, hpair, hcompleted, ⟨hknown, hpaired⟩,
          hlist, by simp⟩
  · simp only [hpaired, Bool.not_false, if_true, throw_bind]
    exact failed_triple hproper.answer

theorem serverInfo_triple (hproper : ConnectsProperly client lib urls address new) :
    Triple (Sofar start new) (client.serverInfo lib urls world address)
      (fun (endpoint, server) trace => ∃ xml,
        Sofar start (new ++ [.exchange ⟨publicRequest client endpoint, .ok xml⟩]) trace ∧
        Endpoint.parse urls address = .ok endpoint ∧
        parseServerInfo lib.parseXml xml = .ok server)
      (Failed start (ConnectsProperly client lib urls address)) := by
  have hpublic (endpoint : Endpoint) (reply : Except ControlError String) :
      ConnectsProperly client lib urls address
        (new ++ [.exchange ⟨publicRequest client endpoint, reply⟩]) :=
    hproper.other ⟨(by decide : "serverinfo" ≠ "pair"), (by decide : "serverinfo" ≠ "applist")⟩ rfl
  unfold GameStreamClient.serverInfo
  refine ofExcept_bind hproper fun endpoint hendpoint => ?_
  refine request_bind (hpublic endpoint) fun xml _ => ?_
  refine ofExcept_bind (hpublic endpoint _) fun server hserver => ?_
  exact .pure fun trace htrace => ⟨xml, htrace, hendpoint, hserver⟩

/-- A host that is returned, with what became of the run. -/
def Connected (host : ConnectedHost) (events : List Event) : Prop :=
  (host.newlyPaired = false ∧ ConnectedKnown client lib urls address host events) ∨
  (host.newlyPaired = true ∧ ConnectedNewly client lib urls address host events)

theorem connect_triple :
    Triple (Sofar start []) (client.connect lib urls world address)
      (fun host trace => ∃ events, Sofar start events trace ∧
        ConnectsProperly client lib urls address events ∧
        Connected client lib urls address host events)
      (Failed start (ConnectsProperly client lib urls address)) := by
  unfold GameStreamClient.connect
  have hproper : ConnectsProperly client lib urls address [.progress .fetchingServerInfo] :=
    .report .nil _
  refine report_bind ?_
  refine .bind (serverInfo_triple client lib urls world address hproper)
    fun (endpoint, server) => .exists_pre fun xml => .and_pre fun ⟨hendpoint, hserver⟩ => ?_
  refine .bind (known_triple client lib world endpoint server.httpsPort)
    fun answer => .exists_pre fun reply => .and_pre fun hknown => ?_
  have hopened : Opened client lib urls address endpoint server reply
      (openingEvents client endpoint xml server reply) := ⟨hendpoint, xml, hserver, rfl⟩
  have hpublic : ConnectsProperly client lib urls address ([.progress .fetchingServerInfo] ++
      [.exchange ⟨publicRequest client endpoint, .ok xml⟩]) :=
    hproper.other ⟨(by decide : "serverinfo" ≠ "pair"), (by decide : "serverinfo" ≠ "applist")⟩ rfl
  have hopening : ConnectsProperly client lib urls address
      (openingEvents client endpoint xml server reply) :=
    hpublic.answer
  cases hanswer : answer.filter ServerInfo.paired with
  | none =>
      refine (connectUnpaired_triple client lib urls world address endpoint hopening hopened
        ?_).consequence (fun _ h => h) ?_ (fun _ _ h => h)
      · intro xml other hxml hother
        have hsome := (hknown other).mpr ⟨xml, hxml, hother⟩
        rw [hanswer] at hsome
        cases hsome
      · rintro host trace ⟨hnewly, events, htrace, hevents, hconnected⟩
        exact ⟨events, htrace, hevents, .inr ⟨hnewly, hconnected⟩⟩
  | some known =>
      obtain ⟨xml', rfl, hknows⟩ := (hknown known).mp hanswer
      have hlisting := hopening.report .fetchingApplications
      have hanswered : .exchange ⟨httpsRequest client endpoint server.httpsPort "serverinfo",
          .ok xml'⟩ ∈ openingEvents client endpoint xml server (.ok xml') ++
            [.progress .fetchingApplications] := List.mem_append_left _ (by simp [openingEvents])
      refine report_bind ?_
      refine .bind ((applications_triple client lib world endpoint known.httpsPort).consequence
        (fun _ h => h) (fun _ _ h => h) ?_)
        fun applications => .exists_pre fun list => .and_pre fun hlist => ?_
      · rintro failure trace ⟨herror, events, htrace, other, rfl, -⟩
        exact ⟨herror, _, htrace, hlisting.list hanswered hknows⟩
      · refine .pure fun trace htrace =>
          ⟨_, htrace, hlisting.list hanswered hknows, .inl ⟨rfl, ?_⟩⟩
        exact ⟨server, _, xml', list, hopened, hknows, hlist, rfl⟩

end Parts

/-- `connect` pairs only with an idle host that does not know this client, shows the PIN
before it, hands the secret to a proven host only, and asks for the applications only a
host that says over HTTPS that it knows this client; the host that it returns did so. -/
theorem connect_protocol (start : Trace) :
    ∃ result events, Ran (client.connect lib urls world address) start result events ∧
      result ≠ .error .panic ∧
      ConnectsProperly client lib urls address events ∧
      ∀ host, result = .ok host → Connected client lib urls address host events := by
  have htriple : Triple (Sofar start []) (client.connect lib urls world address) _ _ :=
    connect_triple client lib urls world address
  have hstart : Sofar start [] start := (List.append_nil _).symm
  cases hrun : client.connect lib urls world address start with
  | ok host trace =>
      obtain ⟨events, htrace, hproper, hconnected⟩ := htriple.ok hstart hrun
      refine ⟨.ok host, events, .of_ok hrun htrace, nofun, hproper, ?_⟩
      rintro _ ⟨⟩
      exact hconnected
  | error failure trace =>
      obtain ⟨⟨error, rfl⟩, events, htrace, hproper⟩ := htriple.error hstart hrun
      exact ⟨.error (.error error), events, .of_error hrun htrace, nofun, hproper, nofun⟩

end Protocol

end MoonlightScarlet.Control
