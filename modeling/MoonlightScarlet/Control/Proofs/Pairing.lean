import MoonlightScarlet.Control.Pairing
import MoonlightScarlet.Control.Proofs.Trace
import MoonlightScarlet.Support.Runs
/-!
# The secret goes to a proven host only

A `HostProof` holds everything that the first three stages exchange; it is valid when
every check of the handshake succeeds on it.  The request of stage 4 comes after a
valid proof and nothing else.
-/

namespace MoonlightScarlet.Control

open Support.Fallible Support.Runs

/-- What was exchanged in the stages 1 to 3. -/
structure HostProof where
  salt : Block
  stageOne : String
  certificate : Bytes
  randomChallenge : Block
  encryptedChallenge : Bytes
  stageTwo : String
  encryptedResponse : Bytes
  response : Bytes
  encryptedChallengeHash : Bytes
  stageThree : String
  pairingSecret : Bytes
  signature : Bytes

section Requests

variable (client : GameStreamClient) (endpoint : Endpoint)

def pairRequest (arguments : List (String × String)) (timeout : Nat) : Request :=
  { endpoint, scheme := "http", port := endpoint.httpPort, command := "pair"
    uniqueId := client.identity.uniqueId, arguments := pairArguments arguments, timeout }

def stageOneRequest (salt : Block) : Request :=
  pairRequest client endpoint
    [("phrase", "getservercert"), ("salt", hexEncode salt.toList),
      ("clientcert", hexEncode (utf8 client.identity.certificatePem))] pairingTimeout

def stageTwoRequest (encryptedChallenge : Bytes) : Request :=
  pairRequest client endpoint [("clientchallenge", hexEncode encryptedChallenge)] requestTimeout

def stageThreeRequest (encryptedChallengeHash : Bytes) : Request :=
  pairRequest client endpoint
    [("serverchallengeresp", hexEncode encryptedChallengeHash)] requestTimeout

def stageFourRequest (clientSecret : Block) : Request :=
  pairRequest client endpoint
    [("clientpairingsecret", hexEncode (clientSecret.toList ++
      client.identity.sign clientSecret.toList))] requestTimeout

def stageFiveRequest (httpsPort : UInt16) : Request :=
  { endpoint, scheme := "https", port := httpsPort, command := "pair"
    uniqueId := client.identity.uniqueId
    arguments := pairArguments [("phrase", "pairchallenge")], timeout := requestTimeout }

/-- The events of a stage. -/
def stageEvents (stage : UInt8) (request : Request)
    (reply : Except ControlError String) : List Event :=
  [.progress (.pairingStage stage), .exchange ⟨request, reply⟩]

theorem stageEvents_snoc (new : List Event) (stage : UInt8) (request : Request)
    (reply : Except ControlError String) :
    new ++ stageEvents stage request reply =
      new ++ [.progress (.pairingStage stage)] ++ [.exchange ⟨request, reply⟩] := by
  rw [stageEvents, List.append_assoc, List.singleton_append]

def HostProof.events (proof : HostProof) : List Event :=
  stageEvents 1 (stageOneRequest client endpoint proof.salt) (.ok proof.stageOne) ++
    stageEvents 2 (stageTwoRequest client endpoint proof.encryptedChallenge) (.ok proof.stageTwo) ++
      stageEvents 3 (stageThreeRequest client endpoint proof.encryptedChallengeHash)
        (.ok proof.stageThree)

end Requests

/-- The reply says `paired` = 1. -/
def Paired (lib : Libraries) (xml : String) : Prop :=
  responseText lib.parseXml xml "paired" = .ok "1"

/-- The key that a PIN gives: the front of the digest of the salted PIN. -/
def pairingKey (lib : Libraries) (version : UInt32) (salt : Block) (pin : String) : Option Block :=
  toBlock ((lib.hashForServer (salt.toList ++ utf8 pin) version).take 16)

/-- Every check of the first three stages succeeds. -/
structure HostProof.Valid (lib : Libraries) (version : UInt32) (pin : String)
    (proof : HostProof) : Prop where
  paired : Paired lib proof.stageOne ∧ Paired lib proof.stageTwo ∧ Paired lib proof.stageThree
  certificate : responseHex lib.parseXml lib.hexError proof.stageOne "plaincert" =
    .ok proof.certificate
  certificate_ne : proof.certificate ≠ []
  challenge : ∃ aesKey, pairingKey lib version proof.salt pin = some aesKey ∧
    lib.aesEncryptZeroPadded proof.randomChallenge.toList aesKey = .ok proof.encryptedChallenge ∧
    responseHex lib.parseXml lib.hexError proof.stageTwo "challengeresponse" =
      .ok proof.encryptedResponse ∧
    lib.aesDecrypt proof.encryptedResponse aesKey = .ok proof.response
  secret : responseHex lib.parseXml lib.hexError proof.stageThree "pairingsecret" =
    .ok proof.pairingSecret
  secret_length : 16 < proof.pairingSecret.length
  verified : lib.verifySignature proof.certificate (proof.pairingSecret.take 16)
    (proof.pairingSecret.drop 16) = .ok ()
  signature : lib.certificateSignature proof.certificate = .ok proof.signature
  response : proof.response.take (hashLength version) =
    lib.hashForServer (proof.randomChallenge.toList ++ proof.signature ++
      proof.pairingSecret.take 16) version

theorem length_hashForServer (lib : Libraries) (input : Bytes) (version : UInt32) :
    (lib.hashForServer input version).length = hashLength version := by
  unfold Libraries.hashForServer hashLength
  split <;> simp

theorem length_hashForServer_ge (lib : Libraries) (input : Bytes) (version : UInt32) :
    16 ≤ (lib.hashForServer input version).length := by
  rw [length_hashForServer, hashLength]
  split <;> omega

theorem toBlock_take {bytes : Bytes} (h : 16 ≤ bytes.length) :
    ∃ block, toBlock (bytes.take 16) = some block := by
  have hlength : (bytes.take 16).length = 16 := by simp [h]
  exact ⟨_, dif_pos hlength⟩

theorem slice_bind {β : Type} {P : Trace → Prop} {R : β → Trace → Prop}
    {E : Failure → Trace → Prop} {bytes : Bytes} {first last : Nat} {next : Bytes → ControlM β}
    (hfirst : first ≤ last) (hlast : last ≤ bytes.length)
    (h : Triple P (next ((bytes.take last).drop first)) R E) :
    Triple P (slice bytes first last >>= next) R E := by
  rw [slice, if_pos ⟨hfirst, hlast⟩, pure_bind]
  exact h

theorem paired_of_requirePaired {lib : Libraries} {xml stage : String}
    (h : requirePaired lib.parseXml xml stage = .ok ()) : Paired lib xml :=
  eq_one_of_check h

/-- The request that carries the client's secret. -/
def Request.Discloses (request : Request) : Prop :=
  ∃ secret, ("clientpairingsecret", secret) ∈ request.arguments

/-- An event of a stage that keeps the client's secret. -/
def Harmless : Event → Prop
  | .progress _ => True
  | .exchange exchange =>
      exchange.request.command = "pair" ∧ ¬exchange.request.Discloses

section Stages

variable (client : GameStreamClient) (lib : Libraries) (world : World) (endpoint : Endpoint)
  {start : Trace} {new : List Event} {Q : List Event → Prop}

theorem stageOne_triple
    (hQ : ∀ {events event}, Q events → Harmless event → Q (events ++ [event]))
    (hnew : Q new) (salt : Block) :
    Triple (Sofar start new) (client.stageOne lib world endpoint salt)
      (fun certificate trace => ∃ xml,
        Sofar start (new ++ stageEvents 1 (stageOneRequest client endpoint salt) (.ok xml)) trace ∧
        Q (new ++ stageEvents 1 (stageOneRequest client endpoint salt) (.ok xml)) ∧
        Paired lib xml ∧
        responseHex lib.parseXml lib.hexError xml "plaincert" = .ok certificate ∧
        certificate ≠ []) (Failed start Q) := by
  have hreply : ∀ reply, Q (new ++ [.progress (.pairingStage 1)] ++
      [.exchange ⟨stageOneRequest client endpoint salt, reply⟩]) := fun reply =>
    hQ (hQ hnew trivial) ⟨rfl, by simp [Request.Discloses, stageOneRequest, pairRequest,
      pairArguments]⟩
  simp only [stageEvents_snoc]
  unfold GameStreamClient.stageOne
  refine report_bind (request_bind hreply fun xml _ => ?_)
  refine ofExcept_bind (hreply _) fun _ hpaired => ?_
  refine ofExcept_bind (hreply _) fun certificate hcertificate => ?_
  dsimp only
  split_ifs with hempty
  · exact failed_triple (hreply _)
  · exact .pure fun trace htrace => ⟨xml, htrace, hreply _,
      paired_of_requirePaired hpaired, hcertificate, by simpa using hempty⟩

theorem stageTwo_triple
    (hQ : ∀ {events event}, Q events → Harmless event → Q (events ++ [event]))
    (hnew : Q new) (length : Nat) (aesKey : Block) :
    Triple (Sofar start new) (client.stageTwo lib world endpoint length aesKey)
      (fun (randomChallenge, response) trace => ∃ encryptedChallenge xml,
        Sofar start (new ++ stageEvents 2 (stageTwoRequest client endpoint encryptedChallenge)
          (.ok xml)) trace ∧
        Q (new ++ stageEvents 2 (stageTwoRequest client endpoint encryptedChallenge) (.ok xml)) ∧
        lib.aesEncryptZeroPadded randomChallenge.toList aesKey = .ok encryptedChallenge ∧
        Paired lib xml ∧
        (∃ encryptedResponse,
          responseHex lib.parseXml lib.hexError xml "challengeresponse" =
            .ok encryptedResponse ∧
          lib.aesDecrypt encryptedResponse aesKey = .ok response) ∧
        length + 16 ≤ response.length) (Failed start Q) := by
  have hreport : Q (new ++ [.progress (.pairingStage 2)]) := hQ hnew trivial
  simp only [stageEvents_snoc]
  unfold GameStreamClient.stageTwo
  refine report_bind (randomBytes_bind fun randomChallenge => ?_)
  refine ofExcept_bind hreport fun encryptedChallenge hchallenge => ?_
  have hreply : ∀ reply, Q (new ++ [.progress (.pairingStage 2)] ++
      [.exchange ⟨stageTwoRequest client endpoint encryptedChallenge, reply⟩]) := fun reply =>
    hQ hreport ⟨rfl, by simp [Request.Discloses, stageTwoRequest, pairRequest, pairArguments]⟩
  refine request_bind hreply fun xml _ => ?_
  refine ofExcept_bind (hreply _) fun _ hpaired => ?_
  refine ofExcept_bind (hreply _) fun encryptedResponse hencrypted => ?_
  refine ofExcept_bind (hreply _) fun response hresponse => ?_
  dsimp only
  split_ifs with hshort
  · exact failed_triple (hreply _)
  · exact .pure fun trace htrace => ⟨encryptedChallenge, xml, htrace, hreply _, hchallenge,
      paired_of_requirePaired hpaired, ⟨encryptedResponse, hencrypted, hresponse⟩,
      Nat.le_of_not_lt hshort⟩

theorem stageThree_triple
    (hQ : ∀ {events event}, Q events → Harmless event → Q (events ++ [event]))
    (hnew : Q new) (version : UInt32) (aesKey : Block) (serverChallenge : Bytes) :
    Triple (Sofar start new)
      (client.stageThree lib world endpoint version aesKey serverChallenge)
      (fun (_, pairingSecret) trace => ∃ encryptedChallengeHash xml,
        Sofar start (new ++ stageEvents 3
          (stageThreeRequest client endpoint encryptedChallengeHash) (.ok xml)) trace ∧
        Q (new ++ stageEvents 3
          (stageThreeRequest client endpoint encryptedChallengeHash) (.ok xml)) ∧
        Paired lib xml ∧
        responseHex lib.parseXml lib.hexError xml "pairingsecret" = .ok pairingSecret ∧
        16 < pairingSecret.length) (Failed start Q) := by
  have hreport : Q (new ++ [.progress (.pairingStage 3)]) := hQ hnew trivial
  simp only [stageEvents_snoc]
  unfold GameStreamClient.stageThree
  refine report_bind (randomBytes_bind fun clientSecret => ?_)
  refine ofExcept_bind hreport fun encryptedChallengeHash _ => ?_
  have hreply : ∀ reply, Q (new ++ [.progress (.pairingStage 3)] ++
      [.exchange ⟨stageThreeRequest client endpoint encryptedChallengeHash, reply⟩]) :=
    fun reply => hQ hreport
      ⟨rfl, by simp [Request.Discloses, stageThreeRequest, pairRequest, pairArguments]⟩
  refine request_bind hreply fun xml _ => ?_
  refine ofExcept_bind (hreply _) fun _ hpaired => ?_
  refine ofExcept_bind (hreply _) fun pairingSecret hsecret => ?_
  dsimp only
  split_ifs with hshort
  · exact failed_triple (hreply _)
  · exact .pure fun trace htrace => ⟨encryptedChallengeHash, xml, htrace, hreply _,
      paired_of_requirePaired hpaired, hsecret, Nat.lt_of_not_le hshort⟩

/-- No event of its own, and past it the server has proved that it knows the PIN. -/
theorem proveServer_triple (hnew : Q new) {version : UInt32} {certificate : Bytes}
    {randomChallenge : Block} {response pairingSecret : Bytes}
    (hlength : 16 < pairingSecret.length) :
    Triple (Sofar start new)
      (GameStreamClient.proveServer lib version certificate randomChallenge response pairingSecret)
      (fun _ trace => Sofar start new trace ∧
        lib.verifySignature certificate (pairingSecret.take 16) (pairingSecret.drop 16) =
          .ok () ∧
        ∃ signature, lib.certificateSignature certificate = .ok signature ∧
          response = lib.hashForServer (randomChallenge.toList ++ signature ++
            pairingSecret.take 16) version) (Failed start Q) := by
  unfold GameStreamClient.proveServer
  rw [splitAt, if_pos (Nat.le_of_lt hlength), pure_bind]
  dsimp only
  cases hverify : lib.verifySignature certificate (pairingSecret.take 16)
      (pairingSecret.drop 16) with
  | error error => exact failed_triple hnew
  | ok =>
      refine ofExcept_bind hnew fun signature hsignature => ?_
      apply slice_bind (Nat.zero_le _) (Nat.le_of_eq (length_hashForServer ..).symm)
      rw [← length_hashForServer, List.take_length, List.drop_zero]
      split_ifs with hresponse
      · exact failed_triple hnew
      · exact .pure fun trace htrace =>
          ⟨htrace, rfl, signature, hsignature, Decidable.of_not_not hresponse⟩

theorem stageFour_triple (clientSecret : Block)
    (hreply : ∀ reply, Q (new ++ stageEvents 4
      (stageFourRequest client endpoint clientSecret) reply)) :
    Triple (Sofar start new) (client.stageFour lib world endpoint clientSecret)
      (fun _ trace => ∃ xml,
        Sofar start (new ++ stageEvents 4 (stageFourRequest client endpoint clientSecret)
          (.ok xml)) trace ∧
        Paired lib xml) (Failed start Q) := by
  simp only [stageEvents_snoc] at hreply ⊢
  unfold GameStreamClient.stageFour
  refine report_bind (request_bind hreply fun xml _ => ?_)
  exact ofExcept_triple (hreply _) fun _ hpaired trace htrace =>
    ⟨xml, htrace, paired_of_requirePaired hpaired⟩

theorem stageFive_triple
    (hQ : ∀ {events event}, Q events → Harmless event → Q (events ++ [event]))
    (hnew : Q new) (httpsPort : UInt16) :
    Triple (Sofar start new) (client.stageFive lib world endpoint httpsPort)
      (fun _ trace => ∃ xml,
        Sofar start (new ++ stageEvents 5 (stageFiveRequest client endpoint httpsPort)
          (.ok xml)) trace ∧
        Q (new ++ stageEvents 5 (stageFiveRequest client endpoint httpsPort) (.ok xml)) ∧
        Paired lib xml) (Failed start Q) := by
  have hreply : ∀ reply, Q (new ++ [.progress (.pairingStage 5)] ++
      [.exchange ⟨stageFiveRequest client endpoint httpsPort, reply⟩]) := fun reply =>
    hQ (hQ hnew trivial)
      ⟨rfl, by simp [Request.Discloses, stageFiveRequest, pairArguments]⟩
  simp only [stageEvents_snoc]
  unfold GameStreamClient.stageFive
  refine report_bind (request_bind hreply fun xml _ => ?_)
  exact ofExcept_triple (hreply _) fun _ hpaired trace htrace =>
    ⟨xml, htrace, hreply _, paired_of_requirePaired hpaired⟩

end Stages

section Handshake

variable (client : GameStreamClient) (lib : Libraries) (endpoint : Endpoint)
  (server : ServerInfo) (pin : String)

/-- A request that discloses the secret comes after a valid proof, in stage 4. -/
def ProvenFirst (before : List Event) : Event → Prop
  | .progress _ => True
  | .exchange exchange =>
      exchange.request.Discloses → ∃ version proof,
        server.serverMajorVersion = .ok version ∧
        HostProof.Valid lib version pin proof ∧
        before = proof.events client endpoint ++ [.progress (.pairingStage 4)]

/-- An event of `pairInner` itself. -/
def PairingEvent : Event → Prop
  | .progress _ => True
  | .exchange exchange => exchange.request.command = "pair"

/-- The events of a handshake that succeeds. -/
def Completed (events : List Event) : Prop :=
  ∃ version proof clientSecret fourth fifth,
    server.serverMajorVersion = .ok version ∧
    HostProof.Valid lib version pin proof ∧
    Paired lib fourth ∧ Paired lib fifth ∧
    events = proof.events client endpoint ++
      stageEvents 4 (stageFourRequest client endpoint clientSecret) (.ok fourth) ++
        stageEvents 5 (stageFiveRequest client endpoint server.httpsPort) (.ok fifth)

def Guarded (events : List Event) : Prop :=
  ∀ before event after, events = before ++ event :: after →
    PairingEvent event ∧ ProvenFirst client lib endpoint server pin before event

variable {client lib endpoint server pin}

theorem Guarded.nil : Guarded client lib endpoint server pin [] := by
  intro before event after h
  simp at h

theorem Guarded.snoc {events : List Event} {event : Event}
    (h : Guarded client lib endpoint server pin events)
    (hevent : PairingEvent event ∧ ProvenFirst client lib endpoint server pin events event) :
    Guarded client lib endpoint server pin (events ++ [event]) := by
  intro before x after hsplit
  exact forall_split_snoc h hevent hsplit

theorem Guarded.harmless {events : List Event} {event : Event}
    (h : Guarded client lib endpoint server pin events) (hevent : Harmless event) :
    Guarded client lib endpoint server pin (events ++ [event]) := by
  apply h.snoc
  cases event with
  | progress progress => exact ⟨trivial, trivial⟩
  | exchange exchange => exact ⟨hevent.1, fun hdiscloses => absurd hdiscloses hevent.2⟩

theorem Guarded.report {events : List Event} (h : Guarded client lib endpoint server pin events)
    (progress : ConnectProgress) :
    Guarded client lib endpoint server pin (events ++ [.progress progress]) :=
  h.snoc ⟨trivial, trivial⟩

variable (client lib endpoint server pin) (world : World)

theorem pairInner_triple (start : Trace) :
    Triple (Sofar start []) (client.pairInner lib world endpoint server pin)
      (fun _ trace => ∃ events, Sofar start events trace ∧
        Guarded client lib endpoint server pin events ∧
        Completed client lib endpoint server pin events)
      (Failed start (Guarded client lib endpoint server pin)) := by
  unfold GameStreamClient.pairInner
  refine ofExcept_bind .nil fun version hversion => ?_
  refine randomBytes_bind fun salt => ?_
  dsimp only
  apply slice_bind (Nat.zero_le _) (length_hashForServer_ge ..)
  obtain ⟨aesKey, hkey⟩ : ∃ aesKey, pairingKey lib version salt pin = some aesKey :=
    toBlock_take (length_hashForServer_ge ..)
  rw [List.drop_zero, ← pairingKey, hkey]
  dsimp only
  rw [pure_bind]
  refine (stageOne_triple client lib world endpoint Guarded.harmless .nil salt).bind
    fun certificate => Triple.exists_pre fun first => Triple.and_pre
      fun ⟨hguard, hfirst, hcertificate, hne⟩ => ?_
  refine (stageTwo_triple client lib world endpoint Guarded.harmless hguard _ aesKey).bind
    fun (randomChallenge, response) => Triple.exists_pre fun encryptedChallenge =>
      Triple.exists_pre fun second => Triple.and_pre fun ⟨hguard, hchallenge, hsecond,
        ⟨encryptedResponse, hencrypted, hresponse⟩, hlong⟩ => ?_
  dsimp only
  apply slice_bind (Nat.zero_le _) (Nat.le_of_add_right_le hlong)
  apply slice_bind (Nat.le_add_right _ _) hlong
  refine (stageThree_triple client lib world endpoint Guarded.harmless hguard _ aesKey _).bind
    fun (clientSecret, pairingSecret) => Triple.exists_pre fun encryptedChallengeHash =>
      Triple.exists_pre fun third => Triple.and_pre
        fun ⟨hguard, hthird, hsecret, hlength⟩ => ?_
  refine (proveServer_triple lib hguard hlength).bind fun _ => Triple.and_pre
    fun ⟨hverified, signature, hsignature, hequal⟩ => ?_
  let proof : HostProof :=
    { salt, stageOne := first, certificate, randomChallenge, encryptedChallenge
      stageTwo := second, encryptedResponse, response, encryptedChallengeHash
      stageThree := third, pairingSecret, signature }
  have hproof : proof.Valid lib version pin :=
    { paired := ⟨hfirst, hsecond, hthird⟩, certificate := hcertificate, certificate_ne := hne
      challenge := ⟨aesKey, hkey, hchallenge, hencrypted, hresponse⟩, secret := hsecret
      secret_length := hlength, verified := hverified, signature := hsignature
      response := hequal }
  have hfourthGuard : ∀ reply, Guarded client lib endpoint server pin
      (proof.events client endpoint ++
        stageEvents 4 (stageFourRequest client endpoint clientSecret) reply) := by
    intro reply
    rw [stageEvents_snoc]
    refine .snoc (.report hguard _) ⟨rfl, fun _ => ?_⟩
    exact ⟨version, proof, hversion, hproof, rfl⟩
  refine (stageFour_triple client lib world endpoint clientSecret hfourthGuard).bind
    fun _ => Triple.exists_pre fun fourth => Triple.and_pre fun hfourth => ?_
  refine (stageFive_triple client lib world endpoint Guarded.harmless (hfourthGuard _)
    _).consequence (fun _ h => h) ?_ (fun _ _ h => h)
  rintro _ trace ⟨fifth, htrace, hguard, hfifth⟩
  exact ⟨_, htrace, hguard, version, proof, clientSecret, fourth, fifth, hversion, hproof,
    hfourth, hfifth, rfl⟩

def unpairRequest : Request :=
  { endpoint, scheme := "http", port := endpoint.httpPort, command := "unpair"
    uniqueId := client.identity.uniqueId, arguments := [], timeout := requestTimeout }

/-- A failed handshake is followed by one more request, and its error is kept. -/
theorem pair_of_error {start trace : Trace} {error : ControlError} {events : List Event}
    (hinner : client.pairInner lib world endpoint server pin start = .error (.error error) trace)
    (htrace : Sofar start events trace) :
    ∃ reply, Ran (client.pair lib world endpoint server pin) start (.error (.error error))
      (events ++ [.exchange ⟨unpairRequest client endpoint, reply⟩]) := by
  refine ⟨world.host trace.events (unpairRequest client endpoint), ?_⟩
  have hget : client.get world endpoint "http" endpoint.httpPort "unpair" [] requestTimeout
      trace = (ofExcept (world.host trace.events (unpairRequest client endpoint)))
        (trace.log (.exchange ⟨unpairRequest client endpoint,
          world.host trace.events (unpairRequest client endpoint)⟩)) := rfl
  refine .of_error ?_ (htrace.log _)
  unfold GameStreamClient.pair
  rewrite [hinner]
  dsimp only
  rewrite [hget]
  cases world.host trace.events (unpairRequest client endpoint) with
  | ok xml => rfl
  | error failure => rfl

/-- Pairing gives the secret to a proven host only, succeeds by the five stages in
order, and clears up after a failure. -/
theorem pair_discloses_to_proven_host (start : Trace) :
    ∃ inner result innerEvents events,
      Ran (client.pairInner lib world endpoint server pin) start inner innerEvents ∧
      Ran (client.pair lib world endpoint server pin) start result events ∧
      (∀ before event after, events = before ++ event :: after →
        ProvenFirst client lib endpoint server pin before event) ∧
      (result = .ok () → Completed client lib endpoint server pin events) ∧
      (∀ failure, inner = .error failure → ∃ error reply,
        failure = .error error ∧ result = .error (.error error) ∧
        events = innerEvents ++ [.exchange ⟨unpairRequest client endpoint, reply⟩] ∧
        ∀ exchange, .exchange exchange ∈ innerEvents → exchange.request.command ≠ "unpair") ∧
      inner ≠ .error .panic := by
  have htriple := pairInner_triple client lib endpoint server pin world start
  have hstart : Sofar start [] start := (List.append_nil _).symm
  cases hinner : client.pairInner lib world endpoint server pin start with
  | ok value trace =>
      obtain ⟨events, htrace, hguard, hcompleted⟩ := htriple.ok hstart hinner
      have hpair : client.pair lib world endpoint server pin start = .ok () trace := by
        unfold GameStreamClient.pair
        rewrite [hinner]
        rfl
      refine ⟨.ok (), .ok (), events, events, .of_ok hinner htrace, .of_ok hpair htrace, ?_,
        fun _ => hcompleted, nofun, nofun⟩
      intro before event after hsplit
      exact (hguard before event after hsplit).2
  | error failure trace =>
      obtain ⟨⟨error, rfl⟩, events, htrace, hguard⟩ := htriple.error hstart hinner
      obtain ⟨reply, hpair⟩ :=
        pair_of_error client lib endpoint server pin world hinner htrace
      refine ⟨_, _, events, _, .of_error hinner htrace, hpair, ?_, nofun, ?_, nofun⟩
      · intro before event after hsplit
        have hunpair : ProvenFirst client lib endpoint server pin events
            (.exchange ⟨unpairRequest client endpoint, reply⟩) := by
          rintro ⟨secret, hsecret⟩
          cases hsecret
        exact forall_split_snoc (fun before event after h => (hguard before event after h).2)
          hunpair hsplit
      · rintro _ ⟨⟩
        refine ⟨error, reply, rfl, rfl, rfl, fun exchange hmem hcommand => ?_⟩
        obtain ⟨before, after, hsplit⟩ := List.append_of_mem hmem
        have hpaired : exchange.request.command = "pair" := (hguard before _ after hsplit).1
        rw [hcommand] at hpaired
        exact absurd hpaired (by decide)

end Handshake

end MoonlightScarlet.Control
