import MoonlightScarlet.Control.Proofs.PlainUrl
/-!
# Entered addresses and the URLs made of them

An endpoint keeps the text of a parsed host.  For a domain name or an IPv4 address the URL
of a request parses back to that host; an IPv6 address gets a second pair of brackets.
-/

namespace MoonlightScarlet.Control

/-! ## The trimmed input -/

theorem dropWhile_surrounded {α : Type} {p : α → Bool} {before core : List α}
    (hbefore : ∀ c ∈ before, p c = true) (hcore : ∀ c ∈ core, p c = false) (hne : core ≠ [])
    (after : List α) : (before ++ (core ++ after)).dropWhile p = core ++ after := by
  rw [List.dropWhile_append_of_pos hbefore]
  cases core with
  | nil => exact absurd rfl hne
  | cons c core => simp [hcore c (by simp)]

/-- A text without whitespace is what `trim` leaves of it when whitespace surrounds it. -/
theorem trim_surrounded {before after : List Char} {text : String}
    (hbefore : ∀ c ∈ before, isWhitespace c = true)
    (hafter : ∀ c ∈ after, isWhitespace c = true)
    (htext : ∀ c ∈ text.toList, isWhitespace c = false) (hne : text.toList ≠ []) :
    trim (String.ofList before ++ text ++ String.ofList after) = text := by
  have hrev : text.toList.reverse ≠ [] := by simpa using hne
  have hback : (after.reverse ++ (text.toList.reverse ++ [])).dropWhile isWhitespace =
      text.toList.reverse ++ [] :=
    dropWhile_surrounded (by simpa using hafter) (by simpa using htext) hrev []
  unfold trim
  rw [String.toList_append, String.toList_append, String.toList_ofList, String.toList_ofList,
    List.append_assoc, dropWhile_surrounded hbefore htext hne, List.reverse_append]
  rw [List.append_nil] at hback
  rw [hback, List.reverse_reverse, String.ofList_toList]

/-- What is entered without a scheme is parsed as http. -/
theorem candidate_plain {text : String} (h : PlainHost text) (port : Option UInt16) :
    Endpoint.candidate (text ++ portText port) = "http://" ++ (text ++ portText port) := by
  have hslash : '/' ∉ (text ++ portText port).toList := by
    rw [String.toList_append, List.mem_append]
    rintro (htext | hport)
    · exact absurd (h.plain _ htext).1 (by decide)
    · exact (portText_plain hport).1 rfl
  unfold Endpoint.candidate containsText
  rw [if_neg]
  intro hinfix
  have hmem : '/' ∈ "://".toList := by decide
  exact hslash ((of_decide_eq_true hinfix).subset hmem)

theorem candidate_http (rest : String) :
    Endpoint.candidate ("http://" ++ rest) = "http://" ++ rest := by
  unfold Endpoint.candidate containsText
  rw [if_pos]
  apply decide_eq_true
  exact ⟨"http".toList, rest.toList, by simp [String.toList_append]⟩

/-! ## Entered ports -/

section Entered

variable {lib : UrlLibrary} {text : String} {host : Host}

/-- The one place where the port of an endpoint comes from. -/
theorem parse_http (h : lib.Lawful) (hplain : PlainHost text)
    (hhost : lib.parseHost text = some host) (port : Option UInt16) {input : String}
    (htrim : trim input ≠ "")
    (hinput : Endpoint.candidate (trim input) = "http://" ++ (text ++ portText port)) :
    Endpoint.parse lib input =
      .ok ⟨host.text, (port.filter (some · ≠ defaultPort "http")).getD defaultHttpPort⟩ := by
  obtain ⟨url, hurl, -, husername, hpassword, hurlHost, hport, hpath, hquery⟩ :=
    @UrlLibrary.Lawful.split lib h _ _ _ port [] (Or.inl rfl) hplain hhost
      ⟨Or.inl rfl, by simp, by simp⟩
  have hcandidate : lib.parse (Endpoint.candidate (trim input)) = .ok url := by
    rw [hinput, ← hurl]
    simp [String.append_assoc]
  unfold Endpoint.parse
  simp [htrim, hcandidate, Url.hostStr, hurlHost, husername, hpassword, hquery, hpath rfl, hport]

def surround (before : List Char) (text : String) (after : List Char) : String :=
  String.ofList before ++ text ++ String.ofList after

theorem parse_surrounded (h : lib.Lawful) (hplain : PlainHost text)
    (hhost : lib.parseHost text = some host) (port : Option UInt16) {before after : List Char}
    (hbefore : ∀ c ∈ before, isWhitespace c = true)
    (hafter : ∀ c ∈ after, isWhitespace c = true) {written : String}
    (hwritten : written = "" ∨ written = "http://") :
    Endpoint.parse lib (surround before (written ++ (text ++ portText port)) after) =
      .ok ⟨host.text, (port.filter (some · ≠ defaultPort "http")).getD defaultHttpPort⟩ := by
  have hspaces : ∀ c ∈ (text ++ portText port).toList, isWhitespace c = false := by
    intro c hc
    rw [String.toList_append, List.mem_append] at hc
    exact hc.elim (fun htext => (hplain.plain c htext).2) fun hport => (portText_plain hport).2
  have hhttp : ∀ c ∈ "http://".toList, isWhitespace c = false := by simp [isWhitespace]
  have hne : (text ++ portText port).toList ≠ [] := by
    simp [String.toList_append, hplain.nonempty]
  have htrim : trim (surround before (written ++ (text ++ portText port)) after) =
      written ++ (text ++ portText port) := by
    apply trim_surrounded hbefore hafter
    · obtain rfl | rfl := hwritten
      · simpa using hspaces
      · intro c hc
        rw [String.toList_append, List.mem_append] at hc
        exact hc.elim (hhttp c) (hspaces c)
    · rw [String.toList_append]
      exact List.append_ne_nil_of_right_ne_nil _ hne
  apply parse_http h hplain hhost port
  · rw [htrim]
    intro hempty
    apply hne
    have hlist := congrArg String.toList hempty
    rw [String.toList_append] at hlist
    exact (List.append_eq_nil_iff.mp hlist).2
  · rw [htrim]
    obtain rfl | rfl := hwritten
    · rw [String.empty_append]
      exact candidate_plain hplain port
    · exact candidate_http _

/-- The port that the user enters is kept exactly if it is not the default port of http, and
without a port it is `defaultHttpPort`. -/
theorem entered_port_kept_iff (h : lib.Lawful) (hplain : PlainHost text)
    (hhost : lib.parseHost text = some host) (port : UInt16) {before after : List Char}
    (hbefore : ∀ c ∈ before, isWhitespace c = true)
    (hafter : ∀ c ∈ after, isWhitespace c = true) :
    (∀ written, written = "" ∨ written = "http://" →
        Endpoint.parse lib (surround before s!"{written}{text}:{port}" after) =
          .ok ⟨host.text, port⟩ ∧
        Endpoint.parse lib (surround before s!"{written}{text}" after) =
          .ok ⟨host.text, defaultHttpPort⟩) ↔
      port ≠ 80 := by
  have hport (written : String) :
      s!"{written}{text}:{port}" = written ++ (text ++ portText (some port)) := by
    simp [portText, String.append_assoc, toString]
  have hnone (written : String) : s!"{written}{text}" = written ++ (text ++ portText none) := by
    simp [portText, toString]
  constructor
  · rintro hkept rfl
    have hparsed := parse_surrounded h hplain hhost (some 80) hbefore hafter (Or.inl rfl)
    rw [← hport, (hkept "" (Or.inl rfl)).1] at hparsed
    have hdefault : (80 : UInt16) = defaultHttpPort :=
      congrArg Endpoint.httpPort (Except.ok.inj hparsed)
    exact absurd hdefault (by decide)
  · intro hne written hwritten
    have hkept : (some port).filter (some · ≠ defaultPort "http") = some port := by
      simpa [defaultPort] using hne
    constructor
    · rw [hport, parse_surrounded h hplain hhost (some port) hbefore hafter hwritten, hkept]
      rfl
    · rw [hnone, parse_surrounded h hplain hhost none hbefore hafter hwritten]
      rfl

end Entered

def localName : String := "sunshine.local"
def localPort : UInt16 := 48000

theorem plainHost_localName : PlainHost localName :=
  ⟨by decide, by simp [localName, isHostDelimiter, isWhitespace]⟩

theorem entered_port_kept_iff_local :
    (∀ written, written = "" ∨ written = "http://" →
        Endpoint.parse PlainUrl.library
          (surround [' '] s!"{written}{localName}:{localPort}" ['\n']) =
          .ok ⟨localName, localPort⟩ ∧
        Endpoint.parse PlainUrl.library (surround [' '] s!"{written}{localName}" ['\n']) =
          .ok ⟨localName, defaultHttpPort⟩) ↔
      localPort ≠ 80 := by
  have hhost : PlainUrl.library.parseHost localName = some (.domain localName) := by decide
  exact entered_port_kept_iff PlainUrl.library_lawful plainHost_localName hhost localPort
    (by simp [isWhitespace]) (by simp [isWhitespace])

/-- Port 80 is written, and the endpoint has port 47989. -/
theorem entered_port_80_lost :
    PlainUrl.library.Lawful ∧ PlainHost localName ∧
      PlainUrl.library.parseHost "sunshine.local" = some (.domain "sunshine.local") ∧
      Endpoint.parse PlainUrl.library "sunshine.local:80" = .ok ⟨"sunshine.local", 47989⟩ ∧
      Endpoint.parse PlainUrl.library "http://sunshine.local:80" =
        .ok ⟨"sunshine.local", 47989⟩ :=
  ⟨PlainUrl.library_lawful, plainHost_localName, by decide, by decide +kernel, by decide +kernel⟩

/-! ## URLs of requests -/

section Requests

variable {lib : UrlLibrary} {input : String} {endpoint : Endpoint} {entered : Url}

/-- An endpoint keeps the host of the URL that was parsed for it. -/
theorem Endpoint.parsed (hparse : Endpoint.parse lib input = .ok endpoint) :
    ∃ url, lib.parse (Endpoint.candidate (trim input)) = .ok url ∧
      url.hostStr = some endpoint.host := by
  unfold Endpoint.parse at hparse
  dsimp only at hparse
  split at hparse
  · exact nomatch hparse
  · split at hparse
    case h_1 => exact nomatch hparse
    case h_2 url hurl =>
        split at hparse
        case h_1 => exact nomatch hparse
        case h_2 host hhost =>
            split at hparse
            · exact nomatch hparse
            · split at hparse
              · exact nomatch hparse
              · cases hparse
                exact ⟨url, hurl, hhost⟩

/-- The URL leads to the port of the host and carries the pairs. -/
structure Reaches (url : Url) (host : String) (port : UInt16) (pairs : List (String × String)) :
    Prop where
  host : url.hostStr = some host
  port : url.portOrKnownDefault = some port
  query : url.queryPairs = pairs

/-- Appended pairs come last and change nothing else. -/
theorem Reaches.foldl {url : Url} {host : String} {port : UInt16}
    {pairs arguments : List (String × String)} (h : Reaches url host port pairs) :
    Reaches (arguments.foldl (fun url argument => url.appendPair argument.1 argument.2) url)
      host port (pairs ++ arguments) := by
  induction arguments generalizing url pairs with
  | nil => simpa using h
  | cons argument arguments ih =>
      have happended : Reaches (url.appendPair argument.1 argument.2) host port
          (pairs ++ [argument]) :=
        ⟨h.host, h.port, by rw [← h.query]; rfl⟩
      simpa using ih happended

theorem effectivePort (scheme : String) (port : UInt16) :
    ((some port).filter (some · ≠ defaultPort scheme)).or (defaultPort scheme) = some port := by
  by_cases hdefault : some port = defaultPort scheme
  · rw [Option.filter_some, if_neg (by simpa using hdefault), Option.none_or, hdefault]
  · rw [Option.filter_some, if_pos (by simpa using hdefault), Option.some_or]

theorem pathText_command {command : String}
    (hcommand : '?' ∉ command.toList ∧ '#' ∉ command.toList) :
    PathText ('/' :: command.toList) :=
  ⟨Or.inr rfl, by simpa using hcommand.1, by simpa using hcommand.2⟩

section Made

variable {scheme : String} (hscheme : scheme = "http" ∨ scheme = "https") (port : UInt16)
  {command : String} (uniqueId : String) (arguments : List (String × String))
  (requestUuid : Vector UInt8 16)

include hscheme

theorem url_plain (h : lib.Lawful) {host : Host} (htext : endpoint.host = host.text)
    (hreparse : lib.parseHost host.text = some host) (hkind : host.isIpv6 = false)
    (hcommand : '?' ∉ command.toList ∧ '#' ∉ command.toList) :
    ∃ url, endpoint.url lib scheme port command uniqueId arguments requestUuid = .ok url ∧
      Reaches url endpoint.host port
        (("uniqueid", uniqueId) :: ("uuid", hexEncode requestUuid.toList) :: arguments) := by
  have hplain : PlainHost host.text := h.plain hreparse hkind
  have hcolon : ':' ∉ endpoint.host.toList := by
    rw [htext]
    exact fun hmem => absurd (hplain.plain _ hmem).1 (by decide)
  obtain ⟨url, hurl, hurlScheme, -, -, hurlHost, hport, -, hquery⟩ :=
    @UrlLibrary.Lawful.split lib h _ _ _ (some port) _ hscheme hplain hreparse
      (pathText_command hcommand)
  have hrequest :
      lib.parse s!"{scheme}://{endpoint.authority}:{port}/{command}" = .ok url := by
    rw [← hurl, Endpoint.authority, if_neg hcolon, htext]
    apply congrArg lib.parse
    apply String.toList_inj.mp
    simp [portText, toString]
  have hreaches : Reaches url endpoint.host port [] :=
    ⟨by rw [Url.hostStr, hurlHost, htext]; rfl,
      by rw [Url.portOrKnownDefault, hport, hurlScheme, effectivePort],
      by rw [Url.queryPairs, hquery]; rfl⟩
  have hidentified : Reaches _ endpoint.host port
      [("uniqueid", uniqueId), ("uuid", hexEncode requestUuid.toList)] := hreaches.foldl
  unfold Endpoint.url
  rw [hrequest]
  exact ⟨_, rfl, hidentified.foldl⟩

/-- The brackets of the stored host are doubled. -/
theorem url_ipv6 (h : lib.Lawful) {address : String}
    (htext : endpoint.host = (Host.ipv6 address).text)
    (hreparse : lib.parseHost (Host.ipv6 address).text = some (.ipv6 address)) :
    ∃ error, endpoint.url lib scheme port command uniqueId arguments requestUuid =
      .error (.invalidHost error) := by
  have hcolon : ':' ∈ endpoint.host.toList := by
    rw [htext, Host.text, String.toList_append, String.toList_append]
    simp [h.ipv6 hreparse]
  obtain ⟨error, herror⟩ := @UrlLibrary.Lawful.doubled lib h _ _ _ (some port)
    ('/' :: command.toList) hscheme hreparse
  have hrequest :
      lib.parse s!"{scheme}://{endpoint.authority}:{port}/{command}" = .error error := by
    rw [← herror, Endpoint.authority, if_pos hcolon, htext]
    apply congrArg lib.parse
    apply String.toList_inj.mp
    simp [Host.text, portText, toString]
  unfold Endpoint.url
  rw [hrequest]
  exact ⟨error, rfl⟩

end Made

/-- The URLs of requests to an accepted address lead to it exactly if it is not an IPv6
literal. -/
theorem url_reaches_iff (h : lib.Lawful) (hparse : Endpoint.parse lib input = .ok endpoint)
    (hentered : lib.parse (Endpoint.candidate (trim input)) = .ok entered)
    (hhttp : entered.scheme = "http") {scheme : String}
    (hscheme : scheme = "http" ∨ scheme = "https") (port : UInt16) {command : String}
    (hcommand : '?' ∉ command.toList ∧ '#' ∉ command.toList) (uniqueId : String)
    (arguments : List (String × String)) (requestUuid : Vector UInt8 16) :
    (∃ url, endpoint.url lib scheme port command uniqueId arguments requestUuid = .ok url ∧
        Reaches url endpoint.host port
          (("uniqueid", uniqueId) :: ("uuid", hexEncode requestUuid.toList) :: arguments)) ↔
      ∀ address, entered.host ≠ some (.ipv6 address) := by
  obtain ⟨host, hhost, hreparse⟩ := h.host hentered hhttp
  have htext : endpoint.host = host.text := by
    obtain ⟨url, hurl, hstr⟩ := Endpoint.parsed hparse
    obtain rfl : entered = url := Except.ok.inj (hentered.symm.trans hurl)
    rw [Url.hostStr, hhost] at hstr
    exact (Option.some.inj hstr).symm
  cases hkind : host.isIpv6 with
  | false =>
      apply iff_of_true
      · exact url_plain hscheme port uniqueId arguments requestUuid h htext hreparse hkind hcommand
      · rintro address hipv6
        rw [hhost, Option.some.injEq] at hipv6
        rw [hipv6] at hkind
        simp [Host.isIpv6] at hkind
  | true =>
      obtain ⟨address, rfl⟩ : ∃ address, host = .ipv6 address := by
        cases host with
        | domain name => simp [Host.isIpv6] at hkind
        | ipv4 address => simp [Host.isIpv6] at hkind
        | ipv6 address => exact ⟨address, rfl⟩
      obtain ⟨error, herror⟩ :=
        url_ipv6 hscheme port uniqueId arguments requestUuid h htext hreparse
      apply iff_of_false
      · rintro ⟨url, hurl, -⟩
        rw [herror] at hurl
        simp at hurl
      · exact fun hall => hall address hhost

end Requests

theorem url_reaches_iff_local :
    (∃ url, (⟨"sunshine.local", 47989⟩ : Endpoint).url PlainUrl.library "https" 47984 "serverinfo"
          "0123456789ABCDEF" [] (Vector.replicate 16 0) = .ok url ∧
        Reaches url "sunshine.local" 47984
          [("uniqueid", "0123456789ABCDEF"),
            ("uuid", hexEncode (Vector.replicate 16 (0 : UInt8)).toList)]) ↔
      ∀ address, some (Host.domain "sunshine.local") ≠ some (.ipv6 address) := by
  have hparse : Endpoint.parse PlainUrl.library "sunshine.local" =
      .ok ⟨"sunshine.local", 47989⟩ := by decide +kernel
  have hentered : PlainUrl.library.parse (Endpoint.candidate (trim "sunshine.local")) =
      .ok { scheme := "http", host := some (.domain "sunshine.local"), port := none
            path := "/" } := by decide +kernel
  exact url_reaches_iff PlainUrl.library_lawful hparse hentered rfl (Or.inr rfl) 47984 (by decide)
    "0123456789ABCDEF" [] (Vector.replicate 16 0)

/-- An IPv6 literal is accepted, and no URL can be made of it. -/
theorem ipv6_url_fails :
    PlainUrl.library.Lawful ∧
      PlainUrl.library.parse (Endpoint.candidate (trim "[::1]")) =
        .ok { scheme := "http", host := some (.ipv6 "::1"), port := none, path := "/" } ∧
      Endpoint.parse PlainUrl.library "[::1]" = .ok ⟨"[::1]", 47989⟩ ∧
      (⟨"[::1]", 47989⟩ : Endpoint).url PlainUrl.library "https" 47984 "serverinfo"
        "0123456789ABCDEF" [] (Vector.replicate 16 0) = .error (.invalidHost "invalid URL") :=
  ⟨PlainUrl.library_lawful, by decide +kernel, by decide +kernel, by decide +kernel⟩

end MoonlightScarlet.Control
