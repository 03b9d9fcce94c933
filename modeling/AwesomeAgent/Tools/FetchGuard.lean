import AwesomeAgent.Tools.WebContracts

/-!
# Which hosts the guard accepts

The guard refuses every spelling of an address that has only decimal and octal parts. Hexadecimal
parts pass its pattern of domain names.
-/

namespace AwesomeAgent.WebContracts

section Guard

variable [WebLibrary]

/-- A host that is public: a global address, or a name that no resolver reads as an address. -/
inductive PublicHost (host : Text) : Prop
  | address (hglobal : ipAddress host = some true)
  | domain (asciiHost : Text) (hliteral : ipAddress host = none)
      (hencoded : idnaEncode host = some asciiHost) (hdotted : '.' ∈ asciiHost)
      (hdomain : isDomain asciiHost = true) (hspecial : isSpecialUse asciiHost = false)
      (hnumeric : Ipv4.inetAton asciiHost = none)

/-- A host that is no address with a hexadecimal part, and whose literal is encoded. -/
structure IsPlainHost (host : Text) : Prop where
  literal : ipAddress host ≠ none → idnaEncode host ≠ none
  named : ∀ asciiHost, ipAddress host = none → idnaEncode host = some asciiHost →
    (∃ part ∈ asciiHost.splitOn '.', Ipv4.isHexPart part = true) →
      Ipv4.inetAton asciiHost = none

/-- The host of a URL as the guard judges it. -/
def urlHost (value : PointText) : Except ValueError Text := (splitFetchUrl value).map Prod.snd

/-- The verdict on the host of a URL. -/
def urlVerdict (value : PointText) : Except ValueError HostVerdict := do
  let host ← urlHost value
  hostVerdict host

/-! ## Verdicts -/

private theorem hostVerdict_eq_address {host : Text} (h : hostVerdict host = .ok .address) :
    ipAddress host = some true := by
  unfold hostVerdict at h
  split at h
  · next isGlobal haddress =>
    rw [haddress]
    cases isGlobal with
    | true => rfl
    | false => cases h
  · split at h
    · cases h
    · split at h <;> cases h

/-- What the guard asks of a name. -/
structure IsAccepted (asciiHost : Text) : Prop where
  dotted : '.' ∈ asciiHost
  domain : isDomain asciiHost = true
  ordinary : isSpecialUse asciiHost = false
  named : isDigitsAndDots asciiHost = false

private theorem hostVerdict_eq_domain {host : Text} (h : hostVerdict host = .ok .domain) :
    ipAddress host = none ∧ ∃ asciiHost, idnaEncode host = some asciiHost ∧
      IsAccepted asciiHost := by
  unfold hostVerdict at h
  split at h
  · split at h <;> cases h
  · next haddress =>
    split at h
    · cases h
    · next asciiHost hencoded =>
      split at h
      · cases h
      · next haccept =>
        simp only [Bool.or_eq_true, Bool.not_eq_true', not_or, Bool.not_eq_true,
          Bool.not_eq_false] at haccept
        obtain ⟨⟨⟨hdot, hdomain⟩, hspecial⟩, hdigits⟩ := haccept
        exact ⟨haddress, asciiHost, hencoded, List.contains_iff_mem.mp hdot, hdomain, hspecial,
          hdigits⟩

variable {asciiHost : Text} {parsed : SplitResult} {accepted : PointText}

omit [WebLibrary] in
private theorem IsAccepted.not_decimal (h : IsAccepted asciiHost) :
    ¬∀ c ∈ asciiHost, Ipv4.IsDecimal c ∨ c = '.' := by
  intro hdecimal
  have hbad : isDigitsAndDots asciiHost = true := by
    unfold isDigitsAndDots
    rw [Bool.and_eq_true]
    constructor
    · rw [Bool.not_eq_true', List.isEmpty_eq_false_iff]
      exact List.ne_nil_of_mem h.dotted
    · rw [List.all_eq_true]
      intro c hc
      simpa [Ipv4.IsDecimal] using hdecimal c hc
  rw [h.named] at hbad
  cases hbad

omit [WebLibrary] in
private theorem IsAccepted.hexPart (h : IsAccepted asciiHost) {address : Nat}
    (haddress : Ipv4.inetAton asciiHost = some address) :
    ∃ part ∈ asciiHost.splitOn '.', Ipv4.isHexPart part = true := by
  by_contra hnone
  simp only [not_exists, not_and, Bool.not_eq_true] at hnone
  exact h.not_decimal (Ipv4.decimal_of_inetAton haddress hnone)

private theorem publicHost_iff {host : Text} {verdict : HostVerdict}
    (h : hostVerdict host = .ok verdict) :
    PublicHost host ∧ idnaEncode host ≠ none ↔ IsPlainHost host := by
  cases verdict with
  | address =>
    have haddress := hostVerdict_eq_address h
    constructor
    · rintro ⟨-, hencoded⟩
      refine ⟨fun _ => hencoded, fun asciiHost hliteral => ?_⟩
      rw [haddress] at hliteral
      cases hliteral
    · intro hplain
      refine ⟨.address haddress, hplain.literal ?_⟩
      rw [haddress]
      exact Option.some_ne_none _
  | domain =>
    obtain ⟨hliteral, asciiHost, hencoded, haccepted⟩ := hostVerdict_eq_domain h
    have hencodes : idnaEncode host ≠ none := by
      rw [hencoded]
      exact Option.some_ne_none _
    constructor
    · rintro ⟨hpublic, -⟩
      refine ⟨fun _ => hencodes, fun other _ hother _ => ?_⟩
      cases hpublic with
      | address hbad =>
        rw [hliteral] at hbad
        cases hbad
      | domain named _ hnamed _ _ _ hnumeric =>
        rw [hother] at hnamed
        cases hnamed
        exact hnumeric
    · intro hplain
      refine ⟨.domain asciiHost hliteral hencoded haccepted.dotted haccepted.domain
        haccepted.ordinary ?_, hencodes⟩
      by_contra hsome
      obtain ⟨address, haddress⟩ := Option.ne_none_iff_exists'.mp hsome
      exact hsome (hplain.named asciiHost hliteral hencoded (haccepted.hexPart haddress))

/-! ## Accepted URLs -/

variable {value left middle right : PointText} {host : Text}

omit [WebLibrary] in
private theorem required_eq_ok {α : Type} {found : Option α} {message : String} {a : α}
    (h : required found message = .ok a) : found = some a := by
  cases found with
  | none => cases h
  | some b =>
    cases h
    rfl

/-- What the guard reads in a URL. -/
structure Reading (value : PointText) (parsed : SplitResult) (host : Text) : Prop where
  split : ∃ text, requireUtf8 value "web fetch URL is not valid UTF-8" = .ok text ∧
    (WebLibrary.urlsplit text).toOption = some parsed
  hostname : ∃ hostname, parsed.hostname = some hostname ∧ host = canonicalHost hostname
  port : ∃ port, parsed.port.toOption = some port

private theorem splitFetchUrl_eq_ok
    (h : splitFetchUrl value = .ok (parsed, host)) : Reading value parsed host := by
  unfold splitFetchUrl at h
  obtain ⟨text, htext, h⟩ := except_bind_ok h
  obtain ⟨-, -, h⟩ := except_bind_ok h
  obtain ⟨-, -, h⟩ := except_bind_ok h
  obtain ⟨split, hsplit, h⟩ := except_bind_ok h
  obtain ⟨port, hport, h⟩ := except_bind_ok h
  obtain ⟨-, -, h⟩ := except_bind_ok h
  obtain ⟨hostname, hhostname, h⟩ := except_bind_ok h
  obtain ⟨-, -, h⟩ := except_bind_ok h
  obtain ⟨-, -, h⟩ := except_bind_ok h
  obtain ⟨-, -, h⟩ := except_bind_ok h
  cases h
  exact ⟨⟨text, htext, required_eq_ok hsplit⟩, ⟨hostname, required_eq_ok hhostname, rfl⟩,
    ⟨port, required_eq_ok hport⟩⟩

private theorem Reading.identity {parsed : SplitResult} (h : Reading value parsed host) :
    (∀ asciiHost, idnaEncode host = some asciiHost →
      ∃ identity, fetchUrlIdentity value = .ok identity ∧ identity.host = asciiHost) ∧
    ∀ identity, fetchUrlIdentity value = .ok identity →
      idnaEncode host = some identity.host := by
  obtain ⟨⟨text, htext, hsplit⟩, ⟨hostname, hhostname, rfl⟩, ⟨port, hport⟩⟩ := h
  unfold fetchUrlIdentity
  rw [htext]
  dsimp only [bind, Except.bind]
  rw [hsplit]
  dsimp only [required]
  rw [hhostname]
  dsimp only
  cases hencoded : idnaEncode (canonicalHost hostname) with
  | none => exact ⟨nofun, nofun⟩
  | some encoded =>
    dsimp only
    rw [hport]
    constructor
    · intro asciiHost hascii
      cases hascii
      exact ⟨_, rfl, rfl⟩
    · intro identity hidentity
      cases hidentity
      rfl

private theorem validatePublicFetchUrl_eq_ok (h : validatePublicFetchUrl value = .ok accepted) :
    accepted = value ∧ ∃ parsed host verdict, splitFetchUrl value = .ok (parsed, host) ∧
      hostVerdict host = .ok verdict := by
  unfold validatePublicFetchUrl at h
  obtain ⟨⟨parsed, host⟩, hsplit, h⟩ := except_bind_ok h
  dsimp only at h
  obtain ⟨verdict, hverdict, h⟩ := except_bind_ok h
  obtain ⟨-, -, h⟩ := except_bind_ok h
  obtain ⟨decoded, -, h⟩ := except_bind_ok h
  obtain ⟨-, -, h⟩ := except_bind_ok h
  cases h
  exact ⟨rfl, parsed, host, verdict, hsplit, hverdict⟩

private theorem webFetchUrlsEquivalent_iff : webFetchUrlsEquivalent left right = true ↔
    (∃ accepted, validatePublicFetchUrl left = .ok accepted) ∧
      (∃ accepted, validatePublicFetchUrl right = .ok accepted) ∧
      ∃ identity, fetchUrlIdentity left = .ok identity ∧
        fetchUrlIdentity right = .ok identity := by
  unfold webFetchUrlsEquivalent
  split
  · next identity other hleft hright hidentity hother =>
    rw [decide_eq_true_iff]
    constructor
    · rintro rfl
      exact ⟨⟨_, hleft⟩, ⟨_, hright⟩, identity, hidentity, hother⟩
    · rintro ⟨-, -, same, hsame, hagain⟩
      rw [hidentity] at hsame
      rw [hother] at hagain
      cases hsame
      cases hagain
      rfl
  · next hnone =>
    refine iff_of_false Bool.false_ne_true ?_
    rintro ⟨⟨accepted, hleft⟩, ⟨other, hright⟩, identity, hidentity, hother⟩
    exact hnone _ _ _ _ hleft hright hidentity hother

private theorem equivalent_symm (h : webFetchUrlsEquivalent left right = true) :
    webFetchUrlsEquivalent right left = true := by
  obtain ⟨hleft, hright, identity, hidentity, hother⟩ := webFetchUrlsEquivalent_iff.1 h
  exact webFetchUrlsEquivalent_iff.2 ⟨hright, hleft, identity, hother, hidentity⟩

private theorem equivalent_trans (h : webFetchUrlsEquivalent left middle = true)
    (hnext : webFetchUrlsEquivalent middle right = true) :
    webFetchUrlsEquivalent left right = true := by
  obtain ⟨hleft, -, identity, hidentity, hmiddle⟩ := webFetchUrlsEquivalent_iff.1 h
  obtain ⟨-, hright, other, hother, hlast⟩ := webFetchUrlsEquivalent_iff.1 hnext
  rw [hmiddle] at hother
  cases hother
  exact webFetchUrlsEquivalent_iff.2 ⟨hleft, hright, identity, hidentity, hlast⟩

private theorem equivalent_self_iff (hsplit : splitFetchUrl value = .ok (parsed, host))
    (haccept : validatePublicFetchUrl value = .ok accepted) :
    webFetchUrlsEquivalent value value = true ↔ idnaEncode host ≠ none := by
  obtain ⟨hencodes, hencoded⟩ := (splitFetchUrl_eq_ok hsplit).identity
  rw [webFetchUrlsEquivalent_iff]
  constructor
  · rintro ⟨-, -, identity, hidentity, -⟩
    rw [hencoded identity hidentity]
    exact Option.some_ne_none _
  · intro hne
    obtain ⟨asciiHost, hascii⟩ := Option.ne_none_iff_exists'.mp hne
    obtain ⟨identity, hidentity, -⟩ := hencodes asciiHost hascii
    exact ⟨⟨_, haccept⟩, ⟨_, haccept⟩, identity, hidentity, hidentity⟩

/-! ## Encoded literals -/

private theorem colon_mem_of_idnaEncode (h : idnaEncode host = some asciiHost)
    (hcolon : ':' ∈ host) : ':' ∈ asciiHost := by
  unfold idnaEncode at h
  split at h
  · split at h
    · cases h
    · cases h
      exact hcolon
  · obtain ⟨encoded, hencoded, rfl⟩ := Option.map_eq_some_iff.mp h
    apply List.mem_append_left
    obtain ⟨label, hlabel, hmem⟩ := Ipv4.mem_splitOnP (p := isLabelDot) hcolon (by decide)
    have hkept : label ∈ (if (host.splitOnP isLabelDot).getLast? == some [] then
        (host.splitOnP isLabelDot).dropLast else host.splitOnP isLabelDot) := by
      split
      · next hlast =>
        obtain ⟨front, hfront⟩ := List.getLast?_eq_some_iff.mp (beq_iff_eq.mp hlast)
        rw [hfront] at hlabel ⊢
        rw [List.dropLast_concat]
        obtain hlabel | hlabel := List.mem_append.mp hlabel
        · exact hlabel
        · rw [List.mem_singleton.mp hlabel] at hmem
          cases hmem
      · exact hlabel
    obtain ⟨result, hresult, hencode⟩ := exists_of_mapM hencoded label hkept
    apply mem_intercalate_of_mem hresult
    unfold encodeLabel at hencode
    split at hencode
    · split at hencode
      · cases hencode
        exact hmem
      · cases hencode
    · exact WebLibrary.toAscii_colon label result hencode hmem

omit [WebLibrary] in
private theorem IsAccepted.no_colon (h : IsAccepted asciiHost) : ':' ∉ asciiHost := by
  intro hcolon
  have hlabels := h.domain
  unfold isDomain at hlabels
  rw [Bool.and_eq_true, List.all_eq_true] at hlabels
  obtain ⟨label, hlabel, hmem⟩ := Ipv4.mem_splitOnP (p := (· == '.')) hcolon (by decide)
  have hall := hlabels.2 label hlabel
  unfold isDomainLabel at hall
  simp only [Bool.and_eq_true, List.all_eq_true] at hall
  exact absurd (hall.1.1.2 ':' hmem) (by decide)

omit [WebLibrary] in
private theorem ascii_of_decimal {c : Char} (h : Ipv4.IsDecimal c ∨ c = '.') : c.toNat < 0x80 := by
  obtain h | rfl := h
  · have hle : c.toNat ≤ '9'.toNat := h.2
    exact hle.trans_lt (by decide)
  · decide

private theorem not_accepted_of_literal {verdict : Bool}
    (hliteral : ipAddress host = some verdict) (hencoded : idnaEncode host = some asciiHost) :
    ¬IsAccepted asciiHost := by
  intro haccepted
  unfold ipAddress at hliteral
  split at hliteral
  · next address haddress =>
    have hdecimal := Ipv4.decimal_of_parseLiteral haddress
    have hascii : (host.all fun c => c.toNat < 0x80) = true := by
      rw [List.all_eq_true]
      exact fun c hc => decide_eq_true (ascii_of_decimal (hdecimal c hc))
    unfold idnaEncode at hencoded
    rw [if_pos hascii] at hencoded
    split at hencoded
    · cases hencoded
    · cases hencoded
      exact haccepted.not_decimal hdecimal
  · exact haccepted.no_colon
      (colon_mem_of_idnaEncode hencoded (WebLibrary.ipv6_colon host verdict hliteral))

private theorem urlVerdict_eq (h : webFetchUrlsEquivalent left right = true) :
    ∃ verdict, urlVerdict left = .ok verdict ∧ urlVerdict right = .ok verdict := by
  obtain ⟨⟨accepted, hleft⟩, ⟨other, hright⟩, identity, hidentity, hagain⟩ :=
    webFetchUrlsEquivalent_iff.1 h
  obtain ⟨-, parsed, host, verdict, hsplit, hverdict⟩ := validatePublicFetchUrl_eq_ok hleft
  obtain ⟨-, parsed', host', verdict', hsplit', hverdict'⟩ := validatePublicFetchUrl_eq_ok hright
  have hencoded := (splitFetchUrl_eq_ok hsplit).identity.2 identity hidentity
  have hencoded' := (splitFetchUrl_eq_ok hsplit').identity.2 identity hagain
  have hurl : urlVerdict left = .ok verdict := by
    rw [urlVerdict, urlHost, hsplit]
    exact hverdict
  have hurl' : urlVerdict right = .ok verdict' := by
    rw [urlVerdict, urlHost, hsplit']
    exact hverdict'
  rw [hurl, hurl']
  have hsame : verdict' = verdict := by
    cases verdict with
    | address =>
      cases verdict' with
      | address => rfl
      | domain =>
        obtain ⟨-, asciiHost, hascii, haccepted⟩ := hostVerdict_eq_domain hverdict'
        rw [hencoded'] at hascii
        cases hascii
        exact absurd haccepted
          (not_accepted_of_literal (hostVerdict_eq_address hverdict) hencoded)
    | domain =>
      cases verdict' with
      | domain => rfl
      | address =>
        obtain ⟨-, asciiHost, hascii, haccepted⟩ := hostVerdict_eq_domain hverdict
        rw [hencoded] at hascii
        cases hascii
        exact absurd haccepted
          (not_accepted_of_literal (hostVerdict_eq_address hverdict') hencoded')
  exact ⟨verdict, rfl, congrArg Except.ok hsame⟩

/-- The guard accepts only public hosts, and an accepted URL is the same as itself, exactly when
the host is plain; sameness is symmetric and transitive and keeps the verdict. -/
theorem fetchGuard_iff :
    (∀ value host, validatePublicFetchUrl value = .ok value → urlHost value = .ok host →
      (PublicHost host ∧ webFetchUrlsEquivalent value value = true ↔ IsPlainHost host)) ∧
    (∀ left right, webFetchUrlsEquivalent left right = true →
      webFetchUrlsEquivalent right left = true) ∧
    (∀ left middle right, webFetchUrlsEquivalent left middle = true →
      webFetchUrlsEquivalent middle right = true → webFetchUrlsEquivalent left right = true) ∧
    ∀ left right, webFetchUrlsEquivalent left right = true →
      ∃ verdict, urlVerdict left = .ok verdict ∧ urlVerdict right = .ok verdict := by
  refine ⟨fun value host haccept hhost => ?_, fun _ _ => equivalent_symm,
    fun _ _ _ => equivalent_trans, fun _ _ => urlVerdict_eq⟩
  obtain ⟨-, parsed, found, verdict, hsplit, hverdict⟩ := validatePublicFetchUrl_eq_ok haccept
  rw [urlHost, hsplit] at hhost
  cases hhost
  rw [equivalent_self_iff hsplit haccept]
  exact publicHost_iff hverdict

end Guard

/-! ## Sample -/

/-- URLs of the samples: a host and a path in ASCII. -/
@[reducible]
def plainUrls : WebLibrary where
  urlsplit text := .ok
    { scheme := "https".toList
      netloc := (text.drop 8).takeWhile (· != '/')
      path := (text.drop 8).dropWhile (· != '/')
      query := []
      username := none
      password := none
      hostname := some (((text.drop 8).takeWhile (· != '/')).map Char.toLower)
      port := .ok none }
  lower text := text.map Char.toLower
  casefold text := text.map Char.toLower
  ipv6IsGlobal _ := none
  toAscii _ := none
  ipv6_colon := nofun
  toAscii_colon := nofun

attribute [local instance] plainUrls in
/-- A name without numbers is public. -/
theorem fetchGuard_sample : PublicHost "example.org".toList ∧
    webFetchUrlsEquivalent (pointsOf "https://example.org/".toList)
      (pointsOf "https://example.org/".toList) = true := by
  refine (fetchGuard_iff.1 (pointsOf "https://example.org/".toList) "example.org".toList
    (by decide) (by decide +kernel)).mpr ⟨fun _ => by decide +kernel, ?_⟩
  intro asciiHost _ hascii _
  have hencoded : idnaEncode "example.org".toList = some "example.org".toList := by decide
  rw [hencoded] at hascii
  cases hascii
  decide

attribute [local instance] plainUrls in
/-- A hexadecimal spelling of the loopback address is accepted. -/
theorem hexHost_accepted :
    validatePublicFetchUrl (pointsOf "https://0x7f.1/".toList) =
        .ok (pointsOf "https://0x7f.1/".toList) ∧
      urlHost (pointsOf "https://0x7f.1/".toList) = .ok "0x7f.1".toList ∧
      Ipv4.inetAton "0x7f.1".toList = some (Ipv4.dotted 127 0 0 1) ∧
      Ipv4.isGlobal (Ipv4.dotted 127 0 0 1) = false ∧ ¬PublicHost "0x7f.1".toList := by
  refine ⟨by decide, by decide +kernel, by decide +kernel, by decide +kernel, ?_⟩
  have hliteral : ipAddress "0x7f.1".toList = none := by decide
  have hencoded : idnaEncode "0x7f.1".toList = some "0x7f.1".toList := by decide
  intro hpublic
  cases hpublic with
  | address hglobal =>
    rw [hliteral] at hglobal
    cases hglobal
  | domain asciiHost _ hascii _ _ _ hnumeric =>
    rw [hencoded] at hascii
    cases hascii
    exact absurd hnumeric (by decide)

end AwesomeAgent.WebContracts
