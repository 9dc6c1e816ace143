import MoonlightScarlet.Control.Endpoint
import MoonlightScarlet.Support.Numerals
/-!
# A parser of plain URLs

It reads http and https URLs whose host is a lower-case name, an IPv4 address or an
IPv6 literal, and meets everything that is relied on of the URL crate.
-/

namespace MoonlightScarlet.Control

open Support.Numerals

/-! ## Characters -/

/-- The range of digits, hyphens, dots and lower-case letters has no delimiter. -/
theorem plain_of_toNat {c : Char}
    (h : 45 ≤ c.toNat ∧ c.toNat ≠ 47 ∧ c.toNat ≤ 57 ∨ 97 ≤ c.toNat ∧ c.toNat ≤ 122) :
    isHostDelimiter c = false ∧ isWhitespace c = false := by
  constructor
  · rw [← Bool.not_eq_true]
    intro hdelimiter
    simp only [isHostDelimiter, Bool.or_eq_true, beq_iff_eq] at hdelimiter
    rcases hdelimiter with ((((((rfl | rfl) | rfl) | rfl) | rfl) | rfl) | rfl) | rfl <;>
      exact absurd h (by decide)
  · simp only [isWhitespace, Bool.or_eq_false_iff, Bool.and_eq_false_iff, decide_eq_false_iff_not,
      beq_eq_false_iff_ne]
    omega

theorem digit_plain {c : Char} (h : c.isDigit = true) :
    isHostDelimiter c = false ∧ isWhitespace c = false := by
  have hcode := toNat_of_isDigit h
  exact plain_of_toNat (by omega)

theorem toList_toString (port : UInt16) : (toString port).toList = Nat.toDigits 10 port.toNat :=
  Nat.toList_repr

theorem toString_plain {port : UInt16} {c : Char} (h : c ∈ (toString port).toList) :
    isHostDelimiter c = false ∧ isWhitespace c = false := by
  rw [toList_toString] at h
  exact digit_plain (Nat.isDigit_of_mem_toDigits (by decide) (by decide) h)

theorem portText_plain {port : Option UInt16} {c : Char} (h : c ∈ (portText port).toList) :
    c ≠ '/' ∧ isWhitespace c = false := by
  cases port with
  | none => exact nomatch h
  | some port =>
      rw [portText, String.toList_append, List.mem_append] at h
      obtain hcolon | hdigit := h
      · rw [List.mem_singleton.mp hcolon]
        decide
      · obtain ⟨hdelimiter, hspace⟩ := toString_plain hdigit
        refine ⟨?_, hspace⟩
        rintro rfl
        exact absurd hdelimiter (by decide)

namespace PlainUrl

def isNameChar (c : Char) : Bool := c.isLower || c.isDigit || c == '-' || c == '.'

def isAddressChar (c : Char) : Bool := c.isDigit || ('a' ≤ c && c ≤ 'f') || c == ':'

/-- The address between the brackets of an IPv6 literal. -/
def bracketed : List Char → Option (List Char)
  | '[' :: rest => if rest.getLast? = some ']' then some rest.dropLast else none
  | _ => none

def parseHost (text : String) : Option Host :=
  match bracketed text.toList with
  | some address =>
      if ':' ∈ address ∧ address.all isAddressChar then some (.ipv6 (String.ofList address))
      else none
  | none =>
      if text.toList = [] ∨ ¬text.toList.all isNameChar then none
      else if text.toList.all fun c => c.isDigit || c == '.' then some (.ipv4 text)
      else some (.domain text)

def parsePort : List Char → Option (Option UInt16)
  | [] => some none
  | ':' :: digits =>
      if digits.all Char.isDigit ∧ Nat.ofDigitChars 10 digits 0 < UInt16.size then
        some (some (UInt16.ofNat (Nat.ofDigitChars 10 digits 0)))
      else none
  | _ => none

/-- The end of the host in an authority: a colon, or a bracket if there is one to close. -/
def splitAuthority (authority : List Char) : List Char × List Char :=
  if authority.head? = some '[' then
    (authority.takeWhile (· ≠ ']') ++ (authority.dropWhile (· ≠ ']')).take 1,
      (authority.dropWhile (· ≠ ']')).drop 1)
  else (authority.takeWhile (· ≠ ':'), authority.dropWhile (· ≠ ':'))

def parseAfter (scheme : String) (rest : List Char) : Except String Url :=
  let parts := splitAuthority (rest.takeWhile (· ≠ '/'))
  let path := rest.dropWhile (· ≠ '/')
  match parseHost (String.ofList parts.1), parsePort parts.2 with
  | some host, some port =>
      .ok { scheme, host := some host, port := port.filter (some · ≠ defaultPort scheme)
            path := if path = [] then "/" else String.ofList path }
  | _, _ => .error "invalid URL"

def parse (text : String) : Except String Url :=
  match text.toList with
  | 'h' :: 't' :: 't' :: 'p' :: ':' :: '/' :: '/' :: rest => parseAfter "http" rest
  | 'h' :: 't' :: 't' :: 'p' :: 's' :: ':' :: '/' :: '/' :: rest => parseAfter "https" rest
  | _ => .error "invalid URL"

def library : UrlLibrary := ⟨parse, parseHost⟩

/-! ## Hosts -/

theorem bracketed_eq {chars address : List Char} (h : bracketed chars = some address) :
    chars = '[' :: (address ++ [']']) := by
  unfold bracketed at h
  split at h
  case h_1 rest =>
      simp only [Option.ite_none_right_eq_some, Option.some.injEq] at h
      obtain ⟨hlast, rfl⟩ := h
      rw [List.dropLast_append_getLast? ']' hlast]
  case h_2 => exact nomatch h

/-- A host is an address in brackets or a name. -/
theorem parseHost_cases {text : String} {host : Host} (h : parseHost text = some host) :
    host.text = text ∧
      ((∃ address : List Char, host = .ipv6 (String.ofList address) ∧ ':' ∈ address ∧
          ∀ c ∈ address, isAddressChar c = true) ∨
        host.isIpv6 = false ∧ text.toList ≠ [] ∧ ∀ c ∈ text.toList, isNameChar c = true) := by
  unfold parseHost at h
  split at h
  case h_1 address hbracketed =>
      simp only [Option.ite_none_right_eq_some, Option.some.injEq, List.all_eq_true] at h
      obtain ⟨⟨hcolon, hall⟩, rfl⟩ := h
      have htext : (Host.ipv6 (String.ofList address)).text = text := by
        apply String.toList_inj.mp
        rw [bracketed_eq hbracketed]
        simp [Host.text]
      exact ⟨htext, Or.inl ⟨address, rfl, hcolon, hall⟩⟩
  case h_2 =>
      simp only [Option.ite_none_left_eq_some, not_or, not_not, List.all_eq_true] at h
      obtain ⟨⟨hne, hall⟩, h⟩ := h
      split at h <;> cases h <;> exact ⟨rfl, Or.inr ⟨rfl, hne, hall⟩⟩

theorem parseHost_text {text : String} {host : Host} (h : parseHost text = some host) :
    parseHost host.text = some host := by
  rw [(parseHost_cases h).1, h]

theorem isNameChar_plain {c : Char} (h : isNameChar c = true) :
    (isHostDelimiter c = false ∧ isWhitespace c = false) ∧ c ≠ Char.ofNat 0 := by
  have hcode :
      45 ≤ c.toNat ∧ c.toNat ≠ 47 ∧ c.toNat ≤ 57 ∨ 97 ≤ c.toNat ∧ c.toNat ≤ 122 := by
    simp only [isNameChar, Bool.or_eq_true, beq_iff_eq] at h
    obtain ((hlower | hdigit) | rfl) | rfl := h
    · exact Or.inr (toNat_of_isLower hlower)
    · have hrange := toNat_of_isDigit hdigit
      omega
    · decide
    · decide
  refine ⟨plain_of_toNat hcode, ?_⟩
  rintro rfl
  exact absurd hcode (by decide)

theorem parseHost_plain {text : String} {host : Host} (h : parseHost text = some host)
    (hkind : host.isIpv6 = false) : PlainHost host.text := by
  obtain ⟨htext, ⟨address, rfl, -⟩ | ⟨-, hne, hall⟩⟩ := parseHost_cases h
  · exact nomatch hkind
  · rw [htext]
    exact ⟨hne, fun c hc => (isNameChar_plain (hall c hc)).1⟩

theorem parseHost_hasText {text : String} {host : Host} (h : parseHost text = some host) :
    host.text ≠ "" ∧ Char.ofNat 0 ∉ host.text.toList := by
  obtain ⟨htext, ⟨address, rfl, -, hall⟩ | ⟨-, hne, hall⟩⟩ := parseHost_cases h
  · have hnul : Char.ofNat 0 ∉ address := fun hmem => absurd (hall _ hmem) (by decide)
    constructor
    · intro hempty
      have hlist := congrArg String.toList hempty
      simp [Host.text] at hlist
    · simpa [Host.text] using hnul
  · rw [htext]
    exact ⟨fun hempty => hne (by rw [hempty]; rfl),
      fun hmem => (isNameChar_plain (hall _ hmem)).2 rfl⟩

/-! ## URLs -/

theorem parseAfter_ok {scheme : String} {rest : List Char} {url : Url}
    (h : parseAfter scheme rest = .ok url) :
    ∃ text host, parseHost text = some host ∧ url.host = some host := by
  unfold parseAfter at h
  dsimp only at h
  split at h
  case h_1 host port hhost _ =>
      cases h
      exact ⟨_, host, hhost, rfl⟩
  case h_2 => exact nomatch h

theorem parse_ok {text : String} {url : Url} (h : parse text = .ok url) :
    ∃ text host, parseHost text = some host ∧ url.host = some host := by
  unfold parse at h
  split at h
  · exact parseAfter_ok h
  · exact parseAfter_ok h
  · exact nomatch h

theorem parse_scheme {scheme : String} (hscheme : scheme = "http" ∨ scheme = "https")
    (rest : String) : parse (scheme ++ "://" ++ rest) = parseAfter scheme rest.toList := by
  unfold parse
  obtain rfl | rfl := hscheme
  · simp
  · simp

theorem parsePort_portText (port : Option UInt16) :
    parsePort (portText port).toList = some port := by
  cases port with
  | none => rfl
  | some port =>
      have hdigits : (Nat.toDigits 10 port.toNat).all Char.isDigit = true :=
        List.all_eq_true.mpr fun c hc => Nat.isDigit_of_mem_toDigits (by decide) (by decide) hc
      rw [portText, String.toList_append, toList_toString]
      show parsePort (':' :: Nat.toDigits 10 port.toNat) = _
      rw [parsePort, Nat.ofDigitChars_ten_toDigits, if_pos ⟨hdigits, port.toNat_lt⟩]
      simp

theorem takeWhile_stop {α : Type} {p : α → Bool} {part rest : List α}
    (hpart : ∀ c ∈ part, p c = true) (hrest : rest.head?.all (p · = false)) :
    (part ++ rest).takeWhile p = part ∧ (part ++ rest).dropWhile p = rest := by
  rw [List.takeWhile_append_of_pos hpart, List.dropWhile_append_of_pos hpart]
  cases rest with
  | nil => simp
  | cons c rest =>
      have hc : p c = false := by simpa using hrest
      simp [hc]

theorem portText_head (port : Option UInt16) :
    (portText port).toList = [] ∨ (portText port).toList.head? = some ':' := by
  cases port with
  | none => exact Or.inl rfl
  | some port => exact Or.inr (by simp [portText])

theorem splitAuthority_plain {text : String} (h : PlainHost text) (port : Option UInt16) :
    splitAuthority (text.toList ++ (portText port).toList) =
      (text.toList, (portText port).toList) := by
  have hbracket : (text.toList ++ (portText port).toList).head? ≠ some '[' := by
    rw [List.head?_append_of_ne_nil _ h.nonempty]
    intro hhead
    exact absurd (h.plain '[' (List.mem_of_head? hhead)).1 (by decide)
  have hcolon : ∀ c ∈ text.toList, decide (c ≠ ':') = true := by
    intro c hc
    rw [decide_eq_true_iff]
    rintro rfl
    exact absurd (h.plain _ hc).1 (by decide)
  have hstop : (portText port).toList.head?.all (fun c => decide (c ≠ ':') = false) = true := by
    obtain hport | hport := portText_head port <;> rw [hport] <;> rfl
  obtain ⟨htake, hdrop⟩ := takeWhile_stop hcolon hstop
  rw [splitAuthority, if_neg hbracket, htake, hdrop]

theorem parse_split {scheme text : String} {host : Host} {port : Option UInt16} {path : List Char}
    (hscheme : scheme = "http" ∨ scheme = "https") (hplain : PlainHost text)
    (hhost : parseHost text = some host) (hpath : PathText path) :
    parse (scheme ++ "://" ++ text ++ portText port ++ String.ofList path) =
      .ok { scheme, host := some host, port := port.filter (some · ≠ defaultPort scheme)
            path := if path = [] then "/" else String.ofList path } := by
  have hslash : ∀ c ∈ text.toList ++ (portText port).toList, decide (c ≠ '/') = true := by
    intro c hc
    rw [decide_eq_true_iff]
    obtain htext | hport := List.mem_append.mp hc
    · rintro rfl
      exact absurd (hplain.plain _ htext).1 (by decide)
    · exact (portText_plain hport).1
  have hstop : path.head?.all (fun c => decide (c ≠ '/') = false) = true := by
    obtain rfl | hhead := hpath.1
    · rfl
    · rw [hhead]
      rfl
  obtain ⟨htake, hdrop⟩ := takeWhile_stop hslash hstop
  rw [String.append_assoc, String.append_assoc, parse_scheme hscheme, String.toList_append,
    String.toList_append, String.toList_ofList, ← List.append_assoc]
  unfold parseAfter
  simp only [htake, hdrop, splitAuthority_plain hplain, String.ofList_toList, hhost,
    parsePort_portText]

theorem parseHost_doubled (rest : List Char) :
    parseHost (String.ofList ('[' :: '[' :: rest)) = none := by
  cases hhost : parseHost (String.ofList ('[' :: '[' :: rest)) with
  | none => rfl
  | some host =>
      obtain ⟨htext, ⟨address, rfl, -, hall⟩ | ⟨-, -, hall⟩⟩ := parseHost_cases hhost
      · have hlist := congrArg String.toList htext
        simp only [Host.text, String.toList_append, String.toList_ofList] at hlist
        cases address with
        | nil => exact absurd (List.cons.inj (List.cons.inj hlist).2).1 (by decide)
        | cons c address =>
            have hc : c = '[' := (List.cons.inj (List.cons.inj hlist).2).1
            exact absurd (hall c (by simp)) (by rw [hc]; decide)
      · exact absurd (hall '[' (by simp)) (by decide)

/-- The host that an authority with two opening brackets starts with has them, too. -/
theorem splitAuthority_doubled (rest : List Char) :
    ∃ part, (splitAuthority ('[' :: '[' :: rest)).1 = '[' :: '[' :: part := by
  have htake : ('[' :: '[' :: rest).takeWhile (· ≠ ']') =
      '[' :: '[' :: rest.takeWhile (· ≠ ']') := by
    simp
  unfold splitAuthority
  rw [if_pos (by rfl), htake]
  exact ⟨_, rfl⟩

theorem parse_doubled {scheme : String} (hscheme : scheme = "http" ∨ scheme = "https")
    (rest : String) : ∃ error, parse (scheme ++ "://" ++ ("[[" ++ rest)) = .error error := by
  obtain ⟨part, hpart⟩ := splitAuthority_doubled (rest.toList.takeWhile (· ≠ '/'))
  have hauthority : ("[[" ++ rest).toList.takeWhile (· ≠ '/') =
      '[' :: '[' :: rest.toList.takeWhile (· ≠ '/') := by
    simp
  rw [parse_scheme hscheme]
  unfold parseAfter
  rw [hauthority]
  dsimp only
  rw [hpart, parseHost_doubled]
  exact ⟨_, rfl⟩

theorem library_lawful : library.Lawful where
  host hurl _ := by
    obtain ⟨_, host, hhost, hurlHost⟩ := parse_ok hurl
    exact ⟨host, hurlHost, parseHost_text hhost⟩
  hostText hurl hurlHost := by
    obtain ⟨_, host, hhost, hurlHost'⟩ := parse_ok hurl
    rw [hurlHost', Option.some.injEq] at hurlHost
    exact hurlHost ▸ parseHost_hasText hhost
  plain := parseHost_plain
  ipv6 hhost := by
    obtain ⟨-, ⟨_, heq, hcolon, -⟩ | ⟨hkind, -⟩⟩ := parseHost_cases hhost
    · cases heq
      simpa using hcolon
    · exact nomatch hkind
  split hscheme hplain hhost hpath :=
    ⟨_, parse_split hscheme hplain hhost hpath, rfl, rfl, rfl, rfl, rfl, fun h => by simp [h], rfl⟩
  doubled {scheme text address port path} hscheme _ := by
    obtain ⟨error, herror⟩ :=
      parse_doubled hscheme (address ++ "]]" ++ portText port ++ String.ofList path)
    have htext : scheme ++ "://[[" ++ address ++ "]]" ++ portText port ++ String.ofList path =
        scheme ++ "://" ++ ("[[" ++ (address ++ "]]" ++ portText port ++ String.ofList path)) := by
      apply String.toList_inj.mp
      simp
    exact ⟨error, (congrArg parse htext).trans herror⟩

end PlainUrl

end MoonlightScarlet.Control
