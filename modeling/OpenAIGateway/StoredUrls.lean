import OpenAIGateway.BaseUrls
import Mathlib.Data.Bool.AllAny

/-!
What an accepted base URL is stored as. The parser reads it as the URL that was
judged, less the slashes at the end of its path, so every rule passes it again
but the one on a text's length, which is not of the URL.
-/

set_option linter.all false

namespace OpenAIGateway.BaseUrls

open Ends (trimEnd stripSuffix)
open ModelList (isControl)

/-! What is relied on of the crate, and what is asked of a stored base URL. -/

/-- The path of a URL whose path was left out is one slash. -/
def rooted (path : Text) : Text := if path = [] then ['/'] else path

/-- A URL over http or https with neither a query nor a fragment. -/
structure Url.Plain (url : Url) : Prop where
  scheme : url.scheme = http ∨ url.scheme = https
  query : url.query = none
  fragment : url.fragment = none

structure UrlCrate.Lawful (crate : UrlCrate) : Prop where
  /-- What is written for a URL is read back as it, slashes at the end of its path left out or
  not. -/
  written : ∀ {text : Text} {url : Url}, crate.parse text = .ok url → url.Plain →
    ∀ path n, url.path = path ++ List.replicate n '/' →
      crate.parse (crate.asStr { url with path := path }) = .ok { url with path := rooted path }
  fragment : ∀ {text : Text} {url : Url}, crate.parse text = .ok url →
    (url.fragment = none ↔ '#' ∉ text)
  query : ∀ {text : Text} {url : Url}, crate.parse text = .ok url → '#' ∉ text →
    (url.query = none ↔ '?' ∉ text)
  /-- Visible ASCII alone is written. -/
  visible : ∀ {text : Text} {url : Url}, crate.parse text = .ok url → url.Plain →
    ∀ c ∈ crate.asStr url, 33 ≤ c.toNat ∧ c.toNat ≤ 126
  host : ∀ {text : Text} {url : Url}, crate.parse text = .ok url →
    ∀ host ∈ url.host, crate.hostStr host ≠ [] ∧ '/' ∉ crate.hostStr host
  domain : ∀ name, crate.hostStr (.domain name) = name

/-- The host's labels, without the dots it may end in. -/
def labels (host : Text) : List Text := (trimEnd '.' host).splitOn '.'

/-- A base URL that is safe to send an endpoint's requests beneath. -/
structure Safe (crate : UrlCrate) (platform : Platform) (result : Text) (url : Url) : Prop where
  read : crate.parse result = .ok url
  noQuery : url.query = none ∧ '?' ∉ result
  noFragment : url.fragment = none ∧ '#' ∉ result
  noCredentials : url.username = [] ∧ url.password = none
  noSlash : result.getLast? ≠ some '/'
  noDeniedAddress : ∀ host ∈ url.host, host.isDeniedAddress = false
  plain : platform = .plain → ∀ name, url.host = some (.domain name) →
    ∀ refused ∈ plainRefusedHosts, ¬ refused.toList.splitOn '.' <:+ labels name
  azure : platform = .azure → ∃ label : String, ∃ host ∈ azureHosts,
    result = "https://".toList ++ label.toList ++ '.' :: host.toList ∧ 2 ≤ label.length ∧
      Ascii.Matches (fun b => lowerOrDigit b || b == 0x2D) 63 label
  gcp : platform = .gcp → url.scheme = https ∨
    url.scheme = http ∧ ∃ host ∈ url.host, isLoopback host = true

/-- The result is given back for itself, and is safe. -/
def Stable (crate : UrlCrate) (platform : Platform) (result : Text) : Prop :=
  endpointBaseUrl crate [] result platform = .ok result ∧ ∃ url, Safe crate platform result url

variable {crate : UrlCrate} {raw : Text} {url : Url} {platform : Platform}

/-! Names are compared label by label. -/

theorem isOrIsUnder_iff (host : Text) (refused : String) : isOrIsUnder host refused = true ↔
    refused.toList.splitOn '.' <:+ host.splitOn '.' := by
  rw [Ends.splitOn_suffix_iff, isOrIsUnder, Bool.or_eq_true, decide_eq_true_eq]
  refine or_congr Iff.rfl ?_
  constructor
  · intro h
    split at h
    next under hunder =>
      obtain ⟨front, rfl⟩ := List.getLast?_eq_some_iff.mp (of_decide_eq_true h)
      refine ⟨front, ?_⟩
      rw [Ends.stripSuffix_eq_some_iff.mp hunder, List.append_assoc, List.singleton_append]
    next => cases h
  · rintro ⟨front, rfl⟩
    have hunder : stripSuffix refused.toList (front ++ '.' :: refused.toList) =
        some (front ++ ['.']) := by
      rw [Ends.stripSuffix_eq_some_iff, List.append_assoc, List.singleton_append]
    rw [hunder]
    exact decide_eq_true List.getLast?_concat

theorem not_suffix_of_allowed (h : plainRefusedHost url .plain = none) {name : Text}
    (hhost : url.host = some (.domain name)) :
    ∀ refused ∈ plainRefusedHosts, ¬ refused.toList.splitOn '.' <:+ labels name := by
  intro refused hrefused hsuffix
  simp only [plainRefusedHost, hhost] at h
  exact List.find?_eq_none.mp h refused hrefused ((isOrIsUnder_iff _ _).mpr hsuffix)

theorem azureResource_eq_some {host : Option Host} {label : Text}
    (h : azureResource host = some label) :
    ∃ azure ∈ azureHosts, host = some (.domain (label ++ '.' :: azure.toList)) := by
  unfold azureResource at h
  split at h
  next name =>
    obtain ⟨azure, hazure, hfound⟩ := List.exists_of_findSome?_eq_some h
    obtain ⟨under, hunder, hlabel⟩ := Option.bind_eq_some_iff.mp hfound
    refine ⟨azure, hazure, ?_⟩
    rw [Ends.stripSuffix_eq_some_iff.mp hunder, Ends.stripSuffix_eq_some_iff.mp hlabel,
      List.append_assoc, List.singleton_append]
  next => cases h

theorem matches_of_isAzureResource {label : String} (h : isAzureResource label = true) :
    2 ≤ label.length ∧ Ascii.Matches (fun b => lowerOrDigit b || b == 0x2D) 63 label := by
  have hascii : ∀ b, (lowerOrDigit b || b == 0x2D) = true → b.toNat < 128 := by
    intro b hb
    have halphanumeric : Ascii.isAlphanumeric b = true ∨ b = 0x2D := by
      simp only [lowerOrDigit, Bool.or_eq_true, beq_iff_eq] at hb
      simp only [Ascii.isAlphanumeric, Bool.or_eq_true]
      tauto
    rcases halphanumeric with hb | rfl
    · exact Ascii.toNat_lt_of_isAlphanumeric hb
    · decide
  simp only [isAzureResource, Bool.and_eq_true, decide_eq_true_eq] at h
  obtain ⟨⟨hlow, hhigh⟩, hbytes⟩ := h
  have hall : (Ascii.bytes label).all (fun b => lowerOrDigit b || b == 0x2D) = true := by
    cases hcons : Ascii.bytes label with
    | nil => rfl
    | cons first rest =>
      rw [hcons, Bool.and_eq_true] at hbytes
      rw [List.all_cons, hbytes.1, hbytes.2]
      rfl
  have hlegal : Ascii.legal (fun b => lowerOrDigit b || b == 0x2D) 63 label = true := by
    rw [Ascii.legal, Bool.and_eq_true, Bool.and_eq_true, decide_eq_true_eq, decide_eq_true_eq]
    exact ⟨⟨by omega, hhigh⟩, hall⟩
  have hmatches := (Ascii.legal_iff_matches hascii 63 label).mp hlegal
  refine ⟨?_, hmatches⟩
  rw [Ascii.bytes, Ascii.encode_eq_map fun c hc => (hmatches.chars c hc).1, List.length_map,
    String.length_toList] at hlow
  exact hlow

theorem isHttpsOrLoopback_iff (url : Url) : isHttpsOrLoopback url = true ↔ url.scheme = https ∨
    url.scheme = http ∧ ∃ host ∈ url.host, isLoopback host = true := by
  have hne : http ≠ https := by decide
  unfold isHttpsOrLoopback
  split
  next hscheme => exact iff_of_true rfl (.inl hscheme)
  next hnot =>
    split
    next hscheme =>
      cases hhost : url.host with
      | none => simp [hnot]
      | some host => simp [hscheme, hne]
    next hhttp => simp [hnot, hhttp]

/-! What is stored is read as the same URL, less the slashes at the end of its path. -/

/-- A URL without the slashes at the end of its path. -/
def Url.withoutSlashes (url : Url) : Url := { url with path := rooted (trimEnd '/' url.path) }

section Stored

variable (hlawful : crate.Lawful)

include hlawful

theorem plain_of_accepted (h : Accepted crate raw platform url) : url.Plain where
  scheme := h.catalogued.scheme
  query := (hlawful.query h.catalogued.parsed h.appendable.noFragment).mpr h.appendable.noQuery
  fragment := (hlawful.fragment h.catalogued.parsed).mpr h.appendable.noFragment

omit hlawful in
theorem asStr_of_plain (h : url.Plain) : crate.asStr url = crate.front url ++ url.path := by
  simp [UrlCrate.asStr, h.query, h.fragment]

omit hlawful in
theorem credentials_of_catalogued (h : Catalogued crate raw url) : url.credentials = [] := by
  rw [Url.credentials, h.password, h.username]
  rfl

omit hlawful in
/-- A resource's path is slashes alone. -/
theorem trimEnd_of_isResource (h : IsResource url) : trimEnd '/' url.path = [] := by
  rw [Ends.trimEnd, List.rdropWhile_eq_nil_iff]
  intro c hc
  exact decide_eq_true (beq_iff_eq.mp (List.all_eq_true.mp h.path c hc))

/-- The front ends in a host or in a port. -/
theorem getLast?_front (h : Catalogued crate raw url) :
    (crate.front url).getLast? ≠ some '/' := by
  obtain ⟨host, hhost, -⟩ := h.host
  obtain ⟨hne, hslash⟩ := hlawful.host h.parsed host hhost
  have hcredentials := credentials_of_catalogued h
  cases hport : url.port with
  | none =>
    intro hlast
    have hfront : crate.front url = url.scheme ++ "://".toList ++ crate.hostStr host := by
      simp [UrlCrate.front, hcredentials, hhost, hport]
    rw [hfront, List.getLast?_append_of_ne_nil _ hne] at hlast
    exact hslash (List.mem_of_getLast? hlast)
  | some port =>
    intro hlast
    have hfront : crate.front url =
        (url.scheme ++ "://".toList ++ crate.hostStr host ++ [':']) ++ Nat.toDigits 10 port := by
      simp [UrlCrate.front, hcredentials, hhost, hport]
    rw [hfront, List.getLast?_append_of_ne_nil _ Nat.toDigits_ne_nil] at hlast
    have hdigit :=
      Nat.isDigit_of_mem_toDigits (by decide) (by decide) (List.mem_of_getLast? hlast)
    exact absurd hdigit (by decide)

theorem stored_eq (h : Accepted crate raw platform url) :
    stored crate url platform = crate.front url ++ trimEnd '/' url.path := by
  have hplain : trimEnd '/' (crate.asStr url) = crate.front url ++ trimEnd '/' url.path := by
    rw [asStr_of_plain (plain_of_accepted hlawful h),
      Ends.trimEnd_append (getLast?_front hlawful h.catalogued)]
  cases platform with
  | azure =>
    have hresource := h.azure rfl
    have hslashes := trimEnd_of_isResource hresource
    have hcredentials := credentials_of_catalogued h.catalogued
    have hfront : "https://".toList = https ++ "://".toList := by decide
    have hstored : stored crate url .azure =
        "https://".toList ++ (url.host.map crate.hostStr).getD [] := rfl
    rw [hstored, hfront, hslashes, UrlCrate.front, hcredentials, hresource.port, hresource.scheme,
      Option.map_none, Option.getD_none, List.append_nil, List.append_nil, List.append_nil]
  | plain => exact hplain
  | aws => exact hplain
  | gcp => exact hplain

theorem parse_stored (h : Accepted crate raw platform url) :
    crate.parse (stored crate url platform) = .ok url.withoutSlashes := by
  obtain ⟨n, hpath⟩ := Ends.exists_trimEnd '/' url.path
  have hplain := plain_of_accepted hlawful h
  have hread := hlawful.written h.catalogued.parsed hplain _ n hpath
  have hshort : Url.Plain { url with path := trimEnd '/' url.path } :=
    ⟨hplain.scheme, hplain.query, hplain.fragment⟩
  rw [asStr_of_plain hshort] at hread
  rw [stored_eq hlawful h]
  exact hread

theorem visible_stored (h : Accepted crate raw platform url) :
    ∀ c ∈ stored crate url platform, 33 ≤ c.toNat ∧ c.toNat ≤ 126 := by
  obtain ⟨n, hpath⟩ := Ends.exists_trimEnd '/' url.path
  have hplain := plain_of_accepted hlawful h
  intro c hc
  refine hlawful.visible h.catalogued.parsed hplain c ?_
  rw [asStr_of_plain hplain, hpath, ← List.append_assoc]
  rw [stored_eq hlawful h] at hc
  exact List.mem_append_left _ hc

omit hlawful in
/-- Visible text has nothing to trim and no control character. -/
theorem trim_of_visible {text : Text} (h : ∀ c ∈ text, 33 ≤ c.toNat ∧ c.toNat ≤ 126) :
    Sse.trim text = text ∧ text.any isControl = false := by
  constructor
  · exact Sse.trim_of_forall fun c hc => Sse.isWhitespace_of_visible (h c hc)
  · rw [List.any_eq_false]
    intro c hc
    have hvisible := h c hc
    simp only [isControl, Bool.or_eq_true, Bool.and_eq_true, decide_eq_true_eq]
    omega

/-- Only the length of what is stored can keep it from being taken again. -/
theorem accepted_stored (h : Accepted crate raw platform url)
    (hshort : (Utf8.encode (stored crate url platform)).length ≤ 2048) :
    Accepted crate (stored crate url platform) platform url.withoutSlashes := by
  obtain ⟨htrim, hcontrol⟩ := trim_of_visible (visible_stored hlawful h)
  have hparse := parse_stored hlawful h
  have hplain := plain_of_accepted hlawful h
  have hscheme : "://".toList <:+: stored crate url platform := by
    rw [stored_eq hlawful h]
    refine ⟨url.scheme, url.credentials ++ (url.host.map crate.hostStr).getD [] ++
      (url.port.map fun port => ':' :: Nat.toDigits 10 port).getD [] ++ trimEnd '/' url.path, ?_⟩
    simp only [UrlCrate.front, List.append_assoc]
  have hnonempty : stored crate url platform ≠ [] := by
    intro hnil
    rw [hnil] at hscheme
    exact absurd (List.eq_nil_of_infix_nil hscheme) (by decide)
  have hfragment : '#' ∉ stored crate url platform := (hlawful.fragment hparse).mp hplain.fragment
  have hquery : '?' ∉ stored crate url platform :=
    (hlawful.query hparse hfragment).mp hplain.query
  refine ⟨?_, ⟨?_, ?_, ?_, h.catalogued.scheme, h.catalogued.username, h.catalogued.password,
    h.catalogued.host⟩, h.allowed, ⟨?_, ?_, ?_, ?_⟩, ?_, h.gcp⟩
  · rwa [htrim]
  · rwa [htrim]
  · rwa [htrim]
  · rwa [htrim]
  · rwa [htrim]
  · rwa [htrim]
  · rwa [htrim]
  · rwa [htrim]
  · intro hazure
    have hresource := h.azure hazure
    refine ⟨?_, hresource.scheme, hresource.resource, hresource.port⟩
    rw [Url.withoutSlashes, trimEnd_of_isResource hresource]
    rfl

/-- The same is stored for it. -/
theorem stored_withoutSlashes (h : Accepted crate raw platform url)
    (hagain : Accepted crate (stored crate url platform) platform url.withoutSlashes) :
    stored crate url.withoutSlashes platform = stored crate url platform := by
  have hpath : trimEnd '/' url.withoutSlashes.path = trimEnd '/' url.path := by
    change trimEnd '/' (rooted (trimEnd '/' url.path)) = _
    unfold rooted
    split
    next hnil =>
      rw [hnil]
      decide
    next => exact Ends.trimEnd_eq_self (Ends.getLast?_trimEnd '/' url.path)
  rw [stored_eq hlawful hagain, stored_eq hlawful h, hpath]
  rfl

theorem safe_stored (h : Accepted crate raw platform url) :
    Safe crate platform (stored crate url platform) url.withoutSlashes := by
  have hparse := parse_stored hlawful h
  have hplain := plain_of_accepted hlawful h
  have hfragment : '#' ∉ stored crate url platform := (hlawful.fragment hparse).mp hplain.fragment
  refine {
    read := hparse
    noQuery := ⟨hplain.query, (hlawful.query hparse hfragment).mp hplain.query⟩
    noFragment := ⟨hplain.fragment, hfragment⟩
    noCredentials := ⟨h.catalogued.username, h.catalogued.password⟩
    noSlash := ?_
    noDeniedAddress := ?_
    plain := ?_
    azure := ?_
    gcp := ?_ }
  · rw [stored_eq hlawful h,
      ← Ends.trimEnd_append (getLast?_front hlawful h.catalogued) url.path]
    exact Ends.getLast?_trimEnd '/' _
  · intro host hhost
    obtain ⟨parsed, hparsed, hdenied⟩ := h.catalogued.host
    have hsame : parsed = host := Option.some.inj (hparsed.symm.trans hhost)
    rw [hsame] at hdenied
    cases host with
    | domain name => rfl
    | ipv4 ip => exact hdenied
    | ipv6 ip => exact hdenied
  · rintro rfl name hhost
    exact not_suffix_of_allowed h.allowed hhost
  · rintro rfl
    obtain ⟨-, -, ⟨label, hlabel, hresource⟩, -⟩ := h.azure rfl
    obtain ⟨azure, hazure, hhost⟩ := azureResource_eq_some hlabel
    obtain ⟨hlength, hmatches⟩ := matches_of_isAzureResource hresource
    have hname : (url.host.map crate.hostStr).getD [] =
        (String.ofList label).toList ++ '.' :: azure.toList := by
      rw [hhost, Option.map_some, Option.getD_some, hlawful.domain, String.toList_ofList]
    refine ⟨String.ofList label, azure, hazure, ?_, hlength, hmatches⟩
    rw [List.append_assoc, ← hname]
    exact rfl
  · rintro rfl
    exact (isHttpsOrLoopback_iff url).mp (h.gcp rfl)

end Stored

/-- What is accepted is safe, and is given back for itself just when it is no longer, written
out, than a text may be. -/
theorem stable_iff (hlawful : crate.Lawful) (raw : Text) (platform : Platform) (result : Text)
    (haccepted : endpointBaseUrl crate [] raw platform = .ok result) :
    Stable crate platform result ↔ ∀ url, crate.parse (Sse.trim raw) = .ok url →
      (Utf8.encode (trimEnd '/' (crate.asStr url))).length ≤ 2048 := by
  obtain ⟨url, h, rfl⟩ := endpointBaseUrl_eq_ok_iff.mp haccepted
  have hwritten : trimEnd '/' (crate.asStr url) = stored crate url platform := by
    rw [stored_eq hlawful h, asStr_of_plain (plain_of_accepted hlawful h),
      Ends.trimEnd_append (getLast?_front hlawful h.catalogued)]
  have hlength : (∀ url', crate.parse (Sse.trim raw) = .ok url' →
      (Utf8.encode (trimEnd '/' (crate.asStr url'))).length ≤ 2048) ↔
      (Utf8.encode (stored crate url platform)).length ≤ 2048 := by
    rw [← hwritten]
    constructor
    · intro hall
      exact hall url h.catalogued.parsed
    · intro hshort url' hparsed
      rw [h.catalogued.parsed] at hparsed
      cases hparsed
      exact hshort
  rw [hlength]
  constructor
  · intro hstable
    obtain ⟨again, hagain, -⟩ := endpointBaseUrl_eq_ok_iff.mp hstable.1
    have hshort := hagain.catalogued.short
    rwa [(trim_of_visible (visible_stored hlawful h)).1] at hshort
  · intro hshort
    have hagain := accepted_stored hlawful h hshort
    exact ⟨endpointBaseUrl_eq_ok_iff.mpr ⟨_, hagain, (stored_withoutSlashes hlawful h hagain).symm⟩,
      _, safe_stored hlawful h⟩

/-! A crate that reads `https` URLs of a plain name, and escapes what is not visible ASCII. -/

def isNameChar (c : Char) : Bool :=
  (decide ('a' ≤ c) && decide (c ≤ 'z')) || (decide ('0' ≤ c) && decide (c ≤ '9')) || c == '-' ||
    c == '.'

def isKept (b : UInt8) : Bool :=
  decide (33 ≤ b.toNat) && decide (b.toNat ≤ 126) && b != 0x23 && b != 0x3F

def escape (path : Text) : Text := Percent.encode isKept (Utf8.encode path)

def readHttps (text : Text) : Except String Url :=
  if "https://".toList <+: text then
    let name := (text.drop 8).takeWhile (· ≠ '/')
    let path := (text.drop 8).dropWhile (· ≠ '/')
    if name = [] ∨ ¬ name.all isNameChar ∨ '?' ∈ path ∨ '#' ∈ path then .error "invalid URL"
    else .ok {
      scheme := https
      username := []
      password := none
      host := some (.domain name)
      port := none
      path := rooted (escape path)
      query := none
      fragment := none }
  else .error "relative URL without a base"

def httpsCrate : UrlCrate where
  parse := readHttps
  hostStr
    | .domain name => name
    | _ => ['0']
  origin _ := []

/-- The text that `readHttps` reads, and what it reads of it. -/
structure ReadsAs (text name path : Text) : Prop where
  text : text = "https://".toList ++ (name ++ path)
  nonempty : name ≠ []
  chars : ∀ c ∈ name, isNameChar c = true
  start : ∀ c ∈ path.head?, c = '/'
  noQuery : '?' ∉ path
  noFragment : '#' ∉ path

def named (name path : Text) : Url where
  scheme := https
  username := []
  password := none
  host := some (.domain name)
  port := none
  path := path
  query := none
  fragment := none

theorem ne_of_isNameChar {c : Char} (h : isNameChar c = true) :
    c ≠ '/' ∧ c ≠ '?' ∧ c ≠ '#' ∧ 33 ≤ c.toNat ∧ c.toNat ≤ 126 := by
  have hrange : ('a' ≤ c ∧ c ≤ 'z') ∨ ('0' ≤ c ∧ c ≤ '9') ∨ c = '-' ∨ c = '.' := by
    simpa [isNameChar, or_assoc] using h
  rcases hrange with ⟨hlow, hhigh⟩ | ⟨hlow, hhigh⟩ | rfl | rfl
  · have hlow : 97 ≤ c.toNat := hlow
    have hhigh : c.toNat ≤ 122 := hhigh
    refine ⟨?_, ?_, ?_, by omega, by omega⟩ <;> rintro rfl <;> exact absurd hlow (by decide)
  · have hlow : 48 ≤ c.toNat := hlow
    have hhigh : c.toNat ≤ 57 := hhigh
    refine ⟨?_, ?_, ?_, by omega, by omega⟩
    · rintro rfl
      exact absurd hlow (by decide)
    · rintro rfl
      exact absurd hhigh (by decide)
    · rintro rfl
      exact absurd hlow (by decide)
  · decide
  · decide

theorem readHttps_eq_ok_iff {text : Text} {url : Url} : readHttps text = .ok url ↔
    ∃ name path, ReadsAs text name path ∧ url = named name (rooted (escape path)) := by
  constructor
  · intro h
    simp only [readHttps] at h
    split at h
    next hprefix =>
      split at h
      · cases h
      next hread =>
        cases h
        obtain ⟨rest, rfl⟩ := hprefix
        have hdrop : ("https://".toList ++ rest).drop 8 = rest := List.drop_left' (by decide)
        rw [hdrop] at hread ⊢
        simp only [not_or, not_not] at hread
        obtain ⟨hne, hchars, hquery, hfragment⟩ := hread
        refine ⟨_, _, ⟨?_, hne, List.all_eq_true.mp hchars, ?_, hquery, hfragment⟩, rfl⟩
        · rw [List.takeWhile_append_dropWhile]
        · intro c hc
          have hstop := List.head?_dropWhile_not (fun c => decide (c ≠ '/')) rest
          rw [hc] at hstop
          simpa using hstop
    next => cases h
  · intro h
    obtain ⟨name, path, h, rfl⟩ := h
    have hdrop : text.drop 8 = name ++ path := by
      rw [h.text]
      exact List.drop_left' (by decide)
    have hname : ∀ c ∈ name, decide (c ≠ '/') = true :=
      fun c hc => decide_eq_true (ne_of_isNameChar (h.chars c hc)).1
    have hpath : path.takeWhile (· ≠ '/') = [] ∧ path.dropWhile (· ≠ '/') = path := by
      cases hcons : path with
      | nil => exact ⟨rfl, rfl⟩
      | cons c rest =>
        have hslash : c = '/' := h.start c (by rw [hcons]; rfl)
        rw [hslash]
        exact ⟨rfl, rfl⟩
    have hread : ¬ (name = [] ∨ ¬ name.all isNameChar = true ∨ '?' ∈ path ∨ '#' ∈ path) := by
      simp only [not_or, not_not]
      exact ⟨h.nonempty, List.all_eq_true.mpr h.chars, h.noQuery, h.noFragment⟩
    rw [readHttps, if_pos ⟨name ++ path, h.text.symm⟩]
    simp only [hdrop, List.takeWhile_append_of_pos hname, List.dropWhile_append_of_pos hname,
      hpath.1, hpath.2, List.append_nil, if_neg hread]
    rfl

/-- What an escaped path is made of. -/
def PathChar (c : Char) : Prop := (33 ≤ c.toNat ∧ c.toNat ≤ 126) ∧ c ≠ '?' ∧ c ≠ '#'

instance (c : Char) : Decidable (PathChar c) := inferInstanceAs (Decidable (_ ∧ _))

theorem pathChar_of_isKept {b : UInt8} (h : isKept b = true) : PathChar (Char.ofNat b.toNat) := by
  simp only [isKept, Bool.and_eq_true, decide_eq_true_eq, bne_iff_ne, ne_eq,
    ← UInt8.toNat_inj] at h
  obtain ⟨⟨⟨hlow, hhigh⟩, hhash⟩, hquestion⟩ := h
  have hchar := Percent.toNat_ofNat (b := b) (by omega)
  refine ⟨by omega, fun heq => hquestion ?_, fun heq => hhash ?_⟩
  · rw [← hchar, heq]
    rfl
  · rw [← hchar, heq]
    rfl

theorem isKept_of_pathChar {c : Char} (h : PathChar c) :
    c.toNat < 128 ∧ isKept (Ascii.byte c) = true := by
  obtain ⟨hvisible, hquestion, hhash⟩ := h
  have hlt : c.toNat < 128 := by omega
  have hbyte : (Ascii.byte c).toNat = c.toNat := by
    rw [Ascii.byte, UInt8.toNat_ofNat']
    omega
  have hne : ∀ d : Char, c ≠ d → ¬ c.toNat = d.toNat := fun d hd heq => hd (Char.toNat_inj.mp heq)
  have hquestion := hne _ hquestion
  have hhash := hne _ hhash
  simp only [isKept, Bool.and_eq_true, decide_eq_true_eq, bne_iff_ne, ne_eq, ← UInt8.toNat_inj,
    hbyte]
  exact ⟨hlt, ⟨hvisible, hhash⟩, hquestion⟩

theorem pathChar_escape (path : Text) : ∀ c ∈ escape path, PathChar c := by
  have hdigits : ∀ n < 16, PathChar (Percent.upperHex n) := by decide
  intro c hc
  rcases Percent.mem_encode hc with ⟨b, hb, rfl⟩ | rfl | ⟨n, hn, rfl⟩
  · exact pathChar_of_isKept hb
  · decide
  · exact hdigits n hn

theorem escape_eq_self {path : Text} (h : ∀ c ∈ path, PathChar c) : escape path = path :=
  Ascii.escape_eq_self fun c hc => isKept_of_pathChar (h c hc)

theorem escape_slash (path : Text) : escape ('/' :: path) = '/' :: escape path := by
  have hbyte : Percent.encode isKept (String.utf8EncodeChar '/') = ['/'] := by decide
  rw [escape, Utf8.encode_cons, Percent.encode, List.flatMap_append]
  exact congrArg (· ++ escape path) hbyte

/-- A rooted path begins with a slash and has no other characters. -/
theorem rooted_escape {path : Text} (h : ∀ c ∈ path.head?, c = '/') :
    (∃ rest, rooted (escape path) = '/' :: rest) ∧ ∀ c ∈ rooted (escape path), PathChar c := by
  cases path with
  | nil =>
    refine ⟨⟨[], rfl⟩, fun c hc => ?_⟩
    rw [List.mem_singleton.mp hc]
    decide
  | cons c rest =>
    have hslash : c = '/' := h c rfl
    have hrooted : rooted (escape (c :: rest)) = escape (c :: rest) := by
      rw [hslash, escape_slash, rooted, if_neg (List.cons_ne_nil _ _)]
    rw [hrooted]
    refine ⟨⟨escape rest, ?_⟩, pathChar_escape _⟩
    rw [hslash, escape_slash]

/-- No text that is read begins a query or a fragment. -/
theorem notMem_of_reads {text name path : Text} (h : ReadsAs text name path) :
    '?' ∉ text ∧ '#' ∉ text := by
  rw [h.text]
  simp only [List.mem_append, not_or]
  exact ⟨⟨by decide, fun hmem => (ne_of_isNameChar (h.chars _ hmem)).2.1 rfl, h.noQuery⟩,
    by decide, fun hmem => (ne_of_isNameChar (h.chars _ hmem)).2.2.1 rfl, h.noFragment⟩

theorem asStr_named (name path : Text) :
    httpsCrate.asStr (named name path) = "https://".toList ++ (name ++ path) := by
  have hfront : "https://".toList = https ++ "://".toList := by decide
  have hcredentials : (named name path).credentials = [] := rfl
  have hwritten : httpsCrate.asStr (named name path) =
      https ++ "://".toList ++ [] ++ name ++ [] ++ path ++ [] ++ [] := rfl
  rw [hwritten, hfront]
  simp only [List.append_nil, List.append_assoc]

/-- A URL that was read is read again from fewer of the slashes at its end. -/
theorem readHttps_named {text name start path : Text} {n : ℕ} (hread : ReadsAs text name start)
    (hpath : rooted (escape start) = path ++ List.replicate n '/') :
    readHttps (httpsCrate.asStr (named name path)) = .ok (named name (rooted path)) := by
  obtain ⟨⟨rest, hslash⟩, hchars⟩ := rooted_escape hread.start
  have hsome : ∀ c ∈ path, PathChar c := by
    intro c hc
    exact hchars c (by rw [hpath]; exact List.mem_append_left _ hc)
  have hstart : ∀ c ∈ path.head?, c = '/' := by
    intro c hc
    cases path with
    | nil => cases hc
    | cons d path =>
      rw [hslash, List.cons_append] at hpath
      cases hc
      exact (List.cons.inj hpath).1.symm
  have hagain : ReadsAs ("https://".toList ++ (name ++ path)) name path :=
    ⟨rfl, hread.nonempty, hread.chars, hstart, fun hmem => (hsome _ hmem).2.1 rfl,
      fun hmem => (hsome _ hmem).2.2 rfl⟩
  have hurl : named name (rooted path) = named name (rooted (escape path)) := by
    rw [escape_eq_self hsome]
  rw [asStr_named]
  exact readHttps_eq_ok_iff.mpr ⟨name, path, hagain, hurl⟩

theorem lawful_httpsCrate : httpsCrate.Lawful where
  written := by
    intro text url h hplain path n hpath
    obtain ⟨name, start, hread, rfl⟩ := readHttps_eq_ok_iff.mp h
    exact readHttps_named hread hpath
  fragment := by
    intro text url h
    obtain ⟨name, path, hread, rfl⟩ := readHttps_eq_ok_iff.mp h
    exact iff_of_true rfl (notMem_of_reads hread).2
  query := by
    intro text url h _
    obtain ⟨name, path, hread, rfl⟩ := readHttps_eq_ok_iff.mp h
    exact iff_of_true rfl (notMem_of_reads hread).1
  visible := by
    intro text url h _ c hc
    obtain ⟨name, path, hread, rfl⟩ := readHttps_eq_ok_iff.mp h
    have hscheme : ∀ c ∈ "https://".toList, 33 ≤ c.toNat ∧ c.toNat ≤ 126 :=
      List.all_iff_forall_prop.mp (by decide)
    rw [asStr_named, List.mem_append, List.mem_append] at hc
    rcases hc with hc | hc | hc
    · exact hscheme c hc
    · exact (ne_of_isNameChar (hread.chars c hc)).2.2.2
    · exact ((rooted_escape hread.start).2 c hc).1
  host := by
    intro text url h host hhost
    obtain ⟨name, path, hread, rfl⟩ := readHttps_eq_ok_iff.mp h
    cases hhost
    exact ⟨hread.nonempty, fun hmem => (ne_of_isNameChar (hread.chars _ hmem)).1 rfl⟩
  domain _ := rfl

theorem stable_models : Stable httpsCrate .plain "https://models.example/v1".toList := by
  have haccepted : endpointBaseUrl httpsCrate [] " https://models.example/v1/ ".toList .plain =
      .ok "https://models.example/v1".toList := by
    rfl
  have hparsed : httpsCrate.parse (Sse.trim " https://models.example/v1/ ".toList) =
      .ok (named "models.example".toList "/v1/".toList) := by
    rfl
  refine (stable_iff lawful_httpsCrate _ _ _ haccepted).mpr fun url hurl => ?_
  rw [hparsed] at hurl
  cases hurl
  decide

/-- A path of letters that are three times as long when they are escaped. -/
def longPath (n : ℕ) : Text := '/' :: (List.replicate n 'é' ++ ['v'])

def longUrl (n : ℕ) : Text := "https://".toList ++ ('h' :: longPath n)

theorem mem_longUrl {n : ℕ} {c : Char} (h : c ∈ longUrl n) :
    c ∈ "https://h/v".toList ∨ c = 'é' := by
  have hfront : ∀ c ∈ "https://".toList, c ∈ "https://h/v".toList :=
    List.all_iff_forall_prop.mp (by decide)
  rcases List.mem_append.mp h with h | h
  · exact .inl (hfront c h)
  · simp only [longPath, List.mem_append, List.mem_cons, List.mem_replicate, List.not_mem_nil,
      or_false] at h
    rcases h with rfl | rfl | ⟨-, rfl⟩ | rfl
    · decide
    · decide
    · exact .inr rfl
    · decide

theorem length_escape_letters (n : ℕ) : (escape (List.replicate n 'é')).length = 6 * n := by
  have hletter : Percent.encode isKept (String.utf8EncodeChar 'é') = "%C3%A9".toList := by decide
  induction n with
  | zero => rfl
  | succ n ih =>
    have hcons : escape (List.replicate (n + 1) 'é') =
        "%C3%A9".toList ++ escape (List.replicate n 'é') := by
      rw [List.replicate_succ, escape, Utf8.encode_cons, Percent.encode, List.flatMap_append]
      exact congrArg (· ++ escape (List.replicate n 'é')) hletter
    have hlength : "%C3%A9".toList.length = 6 := by decide
    rw [hcons, List.length_append, ih, hlength]
    omega

theorem escape_longPath (n : ℕ) :
    escape (longPath n) = ('/' :: escape (List.replicate n 'é')) ++ ['v'] := by
  have hlast : Percent.encode isKept (Utf8.encode ['v']) = ['v'] := by decide
  rw [longPath, escape_slash, List.cons_append]
  refine congrArg (List.cons '/') ?_
  rw [escape, Utf8.encode_append, Percent.encode, List.flatMap_append]
  exact congrArg (escape (List.replicate n 'é') ++ ·) hlast

theorem length_encode_letters (n : ℕ) : (Utf8.encode (List.replicate n 'é')).length = 2 * n := by
  have hletter : (String.utf8EncodeChar 'é').length = 2 := by decide
  induction n with
  | zero => rfl
  | succ n ih =>
    rw [List.replicate_succ, Utf8.encode_cons, List.length_append, ih, hletter]
    omega

theorem chars_longUrl (n : ℕ) : ∀ c ∈ longUrl n, Sse.isWhitespace c = false ∧
    isControl c = false ∧ c ≠ '?' ∧ c ≠ '#' := by
  have hvisible : ∀ c ∈ "https://h/v".toList, Sse.isWhitespace c = false ∧
      isControl c = false ∧ c ≠ '?' ∧ c ≠ '#' := List.all_iff_forall_prop.mp (by decide)
  intro c hc
  rcases mem_longUrl hc with hc | rfl
  · exact hvisible c hc
  · decide

theorem reads_longUrl (n : ℕ) : ReadsAs (longUrl n) ['h'] (longPath n) := by
  have hpath : ∀ c ∈ longPath n, c ∈ longUrl n :=
    fun c hc => List.mem_append_right _ (List.mem_cons_of_mem _ hc)
  refine ⟨rfl, List.cons_ne_nil _ _, ?_, ?_, ?_, ?_⟩
  · intro c hc
    rw [List.mem_singleton.mp hc]
    decide
  · intro c hc
    cases hc
    rfl
  · intro hmem
    exact (chars_longUrl n _ (hpath _ hmem)).2.2.1 rfl
  · intro hmem
    exact (chars_longUrl n _ (hpath _ hmem)).2.2.2 rfl

theorem length_encode_longUrl (n : ℕ) : (Utf8.encode (longUrl n)).length = 2 * n + 11 := by
  have hscheme : (Utf8.encode "https://".toList).length = 8 := by decide
  have hone : (String.utf8EncodeChar 'h').length = 1 ∧ (String.utf8EncodeChar '/').length = 1 ∧
      (Utf8.encode ['v']).length = 1 := by decide
  have hlength : ∀ front : Text, (Utf8.encode (front ++ ('h' :: longPath n))).length =
      (Utf8.encode front).length + (2 * n + 3) := by
    intro front
    rw [longPath, Utf8.encode_append, Utf8.encode_cons, Utf8.encode_cons, Utf8.encode_append,
      List.length_append, List.length_append, List.length_append, List.length_append, hone.1,
      hone.2.1, hone.2.2, length_encode_letters]
    omega
  have hurl := hlength "https://".toList
  calc (Utf8.encode (longUrl n)).length
      = (Utf8.encode "https://".toList).length + (2 * n + 3) := hurl
    _ = 2 * n + 11 := by omega

theorem infix_longUrl (n : ℕ) : "://".toList <:+: longUrl n := by
  have hfront : "https://".toList = https ++ "://".toList := by decide
  have heq : longUrl n = https ++ "://".toList ++ ('h' :: longPath n) :=
    congrArg (· ++ ('h' :: longPath n)) hfront
  rewrite [heq]
  exact List.infix_append https _ _

/-- A plain endpoint may have it. -/
theorem accepted_longUrl {n : ℕ} (hn : n ≤ 1000) :
    Accepted httpsCrate (longUrl n) .plain (named ['h'] (rooted (escape (longPath n)))) := by
  have hchars := chars_longUrl n
  have htrim : Sse.trim (longUrl n) = longUrl n := Sse.trim_of_forall fun c hc => (hchars c hc).1
  have hlength := length_encode_longUrl n
  have hallowed : plainRefusedHosts.find? (isOrIsUnder (trimEnd '.' ['h'])) = none := by decide
  refine ⟨?_, ⟨?_, ?_, ?_, .inr rfl, rfl, rfl, _, rfl, by decide⟩, hallowed, ⟨?_, ?_, ?_, ?_⟩,
    nofun, nofun⟩
  all_goals rewrite [htrim]
  · rw [List.any_eq_false]
    intro c hc
    rw [(hchars c hc).2.1]
    decide
  · exact List.cons_ne_nil _ _
  · omega
  · exact readHttps_eq_ok_iff.mpr ⟨['h'], longPath n, reads_longUrl n, rfl⟩
  · exact List.cons_ne_nil _ _
  · intro hmem
    exact (hchars _ hmem).2.2.1 rfl
  · intro hmem
    exact (hchars _ hmem).2.2.2 rfl
  · exact infix_longUrl n

theorem length_stored_longUrl {n : ℕ} (hn : n ≤ 1000) :
    6 * n < (Utf8.encode
      (stored httpsCrate (named ['h'] (rooted (escape (longPath n)))) .plain)).length := by
  have h := accepted_longUrl hn
  have hpath : rooted (escape (longPath n)) = '/' :: escape (List.replicate n 'é') ++ ['v'] := by
    rw [escape_longPath, rooted, if_neg (by simp)]
  have hlast : ('/' :: escape (List.replicate n 'é') ++ ['v']).getLast? ≠ some '/' := by
    rw [List.getLast?_concat]
    decide
  have hascii := Ascii.encode_eq_map fun c hc =>
    Nat.lt_of_le_of_lt (visible_stored lawful_httpsCrate h c hc).2 (by decide : 126 < 128)
  rw [hascii, List.length_map, stored_eq lawful_httpsCrate h, List.length_append]
  change 6 * n < _ + (trimEnd '/' (rooted (escape (longPath n)))).length
  rw [hpath, Ends.trimEnd_eq_self hlast, List.length_append, List.length_cons,
    length_escape_letters]
  omega

/-- It is stored as a text that is too long to be taken again. -/
theorem longUrl_not_stable :
    (∃ result, endpointBaseUrl httpsCrate [] (longUrl 400) .plain = .ok result ∧
      endpointBaseUrl httpsCrate [] result .plain ≠ .ok result) ∧
    ¬ ∀ crate : UrlCrate, crate.Lawful → ∀ raw platform result,
      endpointBaseUrl crate [] raw platform = .ok result → Stable crate platform result := by
  have haccepted := accepted_longUrl (n := 400) (by decide)
  have hfirst := endpointBaseUrl_eq_ok_iff.mpr ⟨_, haccepted, rfl⟩
  have hagain : endpointBaseUrl httpsCrate []
      (stored httpsCrate (named ['h'] (rooted (escape (longPath 400)))) .plain) .plain ≠
      .ok (stored httpsCrate (named ['h'] (rooted (escape (longPath 400)))) .plain) := by
    intro h
    obtain ⟨url, hurl, -⟩ := endpointBaseUrl_eq_ok_iff.mp h
    have hshort := hurl.catalogued.short
    have hlong := length_stored_longUrl (n := 400) (by decide)
    rw [(trim_of_visible (visible_stored lawful_httpsCrate haccepted)).1] at hshort
    omega
  exact ⟨⟨_, hfirst, hagain⟩, fun h => hagain (h _ lawful_httpsCrate _ _ _ hfirst).1⟩

end OpenAIGateway.BaseUrls
