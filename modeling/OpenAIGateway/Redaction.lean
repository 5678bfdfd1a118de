import OpenAIGateway.Split

/-!
The redaction of a URL before it is printed. Two URLs that differ in a secret
alone are printed alike, or one of them is withheld whole: the userinfo is cut
at the last `@` of an authority that ends at the first `/` or `?`, and an `@`
past it means that a secret may have been cut in two.
-/

set_option linter.all false

namespace OpenAIGateway.Redaction

/-- What stands for a text that is not printed. -/
def hidden : String := "<redacted>"

/-- Query parameters libpq accepts a secret in. -/
def secretQueryKeys : List String := ["password", "sslpassword"]

/-- A character an authority ends at. -/
def endsAuthority (c : Char) : Bool := c == '/' || c == '?'

def splitAuthority (rest : String) : String × String :=
  (String.ofList (rest.toList.takeWhile (fun c => !endsAuthority c)),
    String.ofList (rest.toList.dropWhile (fun c => !endsAuthority c)))

/-- The last `@` ends the userinfo. -/
def redactAuthority (authority : String) : String :=
  match Split.rsplitOnce '@' authority with
  | some (_, host) => "<redacted>@" ++ host
  | none => authority

def redactPair (pair : String) : String :=
  match Split.splitOnce '=' pair with
  | some (key, _) => if key ∈ secretQueryKeys then key ++ "=<redacted>" else pair
  | none => pair

def redactQuery (query : String) : String :=
  String.intercalate "&" ((Split.split '&' query).map redactPair)

def redactTail (tail : String) : String :=
  match Split.splitOnce '?' tail with
  | some (path, query) => path ++ "?" ++ redactQuery query
  | none => tail

/-- What follows the scheme. -/
def redactRest (scheme : String) (rest : String) : String :=
  let (authority, tail) := splitAuthority rest
  if '@' ∈ tail.toList then hidden
  else scheme ++ "://" ++ redactAuthority authority ++ redactTail tail

def redactUrl (url : String) : String :=
  match Split.splitOnceText "://" url with
  | none => hidden
  | some (scheme, rest) => redactRest scheme rest

/-- A URL with a secret in its query: `scheme://[userinfo@]host?..key=value..`, its
value left out. -/
structure SecretParameter where
  scheme : String
  userinfo : String
  host : String
  earlier : String
  key : String
  later : String
  scheme_clean : ¬ "://".toList <:+: scheme.toList
  userinfo_ends : userinfo = "" ∨ ∃ u, userinfo = u ++ "@"
  host_clean : '?' ∉ host.toList
  earlier_ends : earlier = "" ∨ ∃ q, earlier = q ++ "&"
  secret : key ∈ secretQueryKeys
  later_starts : later = "" ∨ ∃ q, later = "&" ++ q

namespace SecretParameter

def pair (p : SecretParameter) (value : String) : String := p.key ++ "=" ++ value

def query (p : SecretParameter) (value : String) : String := p.earlier ++ p.pair value ++ p.later

def rest (p : SecretParameter) (value : String) : String :=
  p.userinfo ++ p.host ++ "?" ++ p.query value

def url (p : SecretParameter) (value : String) : String := p.scheme ++ "://" ++ p.rest value

end SecretParameter

section Cuts

/-- A URL is cut after its scheme, or before a `/` that follows it. -/
theorem splitOnceText_url (scheme rest : String) :
    ∃ scheme' rest', Split.splitOnceText "://" (scheme ++ "://" ++ rest) = some (scheme', rest') ∧
      ((scheme' = scheme ∧ rest' = rest) ∨ (∃ w, rest' = w ++ "/" ++ rest) ∧
        "://".toList <:+: scheme.toList) := by
  obtain ⟨xs, ys, hfound, heq, hlen⟩ :=
    Split.firstText_append "://".toList scheme.toList rest.toList
  refine ⟨String.ofList xs, String.ofList ys, ?_, ?_⟩
  · unfold Split.splitOnceText
    rw [String.toList_append, String.toList_append, hfound]
    rfl
  · obtain ⟨w, hw⟩ : xs <+: scheme.toList := by
      rw [List.append_assoc, List.append_assoc] at heq
      exact List.prefix_of_prefix_length_le ⟨_, heq⟩ (List.prefix_append _ _) hlen
    rw [← hw, List.append_assoc, List.append_assoc, List.append_assoc,
      List.append_cancel_left_eq] at heq
    change ':' :: '/' :: '/' :: ys = w ++ ':' :: '/' :: '/' :: rest.toList at heq
    rcases w with _ | ⟨a, _ | ⟨b, _ | ⟨c, w⟩⟩⟩
    · simp only [List.nil_append, List.cons.injEq, true_and] at heq
      rw [List.append_nil] at hw
      exact Or.inl ⟨by rw [hw, String.ofList_toList], by rw [heq, String.ofList_toList]⟩
    · simp at heq
    · simp at heq
    · simp only [List.cons_append, List.cons.injEq] at heq
      obtain ⟨rfl, rfl, rfl, rfl⟩ := heq
      refine Or.inr ⟨⟨String.ofList (w ++ [':', '/']), ?_⟩, xs, w, ?_⟩
      · rw [← String.toList_inj]
        simp
      · rw [← hw]
        simp

/-- A slash or a question mark before an `@` hides everything. -/
theorem redactRest_of_cut (scheme : String) {rest : String} (before later : List Char) {c : Char}
    (hrest : rest.toList = before ++ c :: later) (hc : endsAuthority c = true)
    (hat : '@' ∈ later) : redactRest scheme rest = hidden := by
  have hsuffix : c :: later <:+ rest.toList.dropWhile (fun c => !endsAuthority c) := by
    rw [hrest, List.dropWhile_append]
    split
    · have hstays : (c :: later).dropWhile (fun c => !endsAuthority c) = c :: later :=
        List.dropWhile_cons_of_neg (by simp [hc])
      exact ⟨[], hstays.symm⟩
    · exact List.suffix_append _ _
  have htail : '@' ∈ (splitAuthority rest).2.toList := by
    unfold splitAuthority
    rw [String.toList_ofList]
    exact hsuffix.subset (List.mem_cons_of_mem c hat)
  unfold redactRest
  exact if_pos htail

end Cuts

section Userinfo

/-- What follows the last `@`. -/
def host (authority : String) : String :=
  match Split.rsplitOnce '@' authority with
  | some (_, host) => host
  | none => authority

theorem redactAuthority_userinfo (userinfo authority : String) :
    redactAuthority (userinfo ++ "@" ++ authority) = "<redacted>@" ++ host authority := by
  unfold host
  cases h : Split.rsplitOnce '@' authority with
  | none =>
    have hlast : Split.rsplitOnce '@' (userinfo ++ "@" ++ authority) =
        some (userinfo, authority) :=
      Split.rsplitOnce_eq_some_iff.mpr ⟨by simp, Split.rsplitOnce_eq_none_iff.mp h⟩
    unfold redactAuthority
    rw [hlast]
  | some parts =>
    obtain ⟨xs, ys⟩ := parts
    obtain ⟨hxs, hys⟩ := Split.rsplitOnce_eq_some_iff.mp h
    have hlast : Split.rsplitOnce '@' (userinfo ++ "@" ++ authority) =
        some (userinfo ++ "@" ++ xs, ys) :=
      Split.rsplitOnce_eq_some_iff.mpr ⟨by simp [hxs], hys⟩
    unfold redactAuthority
    rw [hlast]

/-- What is printed of a URL with any userinfo that is not withheld whole. -/
def shown (scheme rest : String) : String :=
  scheme ++ "://" ++ ("<redacted>@" ++ host (splitAuthority rest).1) ++
    redactTail (splitAuthority rest).2

/-- A userinfo that no authority ends in is part of the authority. -/
theorem splitAuthority_append {before : String} (h : ∀ c ∈ before.toList, endsAuthority c = false)
    (rest : String) : splitAuthority (before ++ rest) =
      (before ++ (splitAuthority rest).1, (splitAuthority rest).2) := by
  have hall : ∀ c ∈ before.toList, (!endsAuthority c) = true := by
    intro c hc
    rw [h c hc]
    rfl
  unfold splitAuthority
  rw [String.toList_append, List.takeWhile_append_of_pos hall, List.dropWhile_append_of_pos hall]
  refine Prod.ext ?_ rfl
  rw [← String.toList_inj]
  simp

/-- A userinfo is withheld with all the rest, or printed as every other is. -/
theorem redactUrl_userinfo (scheme userinfo rest : String) :
    redactUrl (scheme ++ "://" ++ (userinfo ++ "@" ++ rest)) = hidden ∨
      redactUrl (scheme ++ "://" ++ (userinfo ++ "@" ++ rest)) = shown scheme rest := by
  obtain ⟨scheme', rest', hcut, hwhere⟩ := splitOnceText_url scheme (userinfo ++ "@" ++ rest)
  unfold redactUrl
  rw [hcut]
  rcases hwhere with ⟨rfl, rfl⟩ | ⟨⟨w, rfl⟩, -⟩
  · by_cases hends : ∃ c ∈ userinfo.toList, endsAuthority c = true
    · obtain ⟨c, hmem, hc⟩ := hends
      obtain ⟨before, later, hsplit⟩ := List.append_of_mem hmem
      refine Or.inl (redactRest_of_cut _ before (later ++ '@' :: rest.toList) ?_ hc ?_)
      · simp [hsplit]
      · simp
    · have hclean : ∀ c ∈ (userinfo ++ "@").toList, endsAuthority c = false := by
        intro c hc
        rw [String.toList_append, List.mem_append] at hc
        rcases hc with hc | hc
        · simpa using fun h => hends ⟨c, hc, h⟩
        · rw [List.mem_singleton.mp hc]
          rfl
      change redactRest scheme' (userinfo ++ "@" ++ rest) = hidden ∨
        redactRest scheme' (userinfo ++ "@" ++ rest) = shown scheme' rest
      unfold redactRest
      rw [splitAuthority_append hclean]
      by_cases hat : '@' ∈ (splitAuthority rest).2.toList
      · exact Or.inl (if_pos hat)
      · refine Or.inr ((if_neg hat).trans ?_)
        rw [redactAuthority_userinfo]
        rfl
  · have hslash : endsAuthority '/' = true := rfl
    refine Or.inl (redactRest_of_cut _ w.toList (userinfo ++ "@" ++ rest).toList ?_ hslash ?_)
    · simp
    · simp

end Userinfo

section Query

/-- A question mark ends what comes before the query, whatever the query is. -/
theorem splitAuthority_query {before : String} (hclean : '?' ∉ before.toList) :
    ∃ authority path, '?' ∉ path.toList ∧
      ∀ query, splitAuthority (before ++ "?" ++ query) = (authority, path ++ "?" ++ query) := by
  refine ⟨String.ofList (before.toList.takeWhile fun c => !endsAuthority c),
    String.ofList (before.toList.dropWhile fun c => !endsAuthority c), ?_, fun query => ?_⟩
  · rw [String.toList_ofList]
    exact fun hmem => hclean ((List.dropWhile_suffix _).subset hmem)
  · have hstop : (!endsAuthority '?') = false := rfl
    have htake : (before.toList ++ '?' :: query.toList).takeWhile (fun c => !endsAuthority c) =
        before.toList.takeWhile fun c => !endsAuthority c := by
      rw [List.takeWhile_append]
      split
      · next hall =>
        rw [List.takeWhile_cons_of_neg (by simp [hstop]), List.append_nil]
        exact ((List.takeWhile_prefix _).eq_of_length hall).symm
      · rfl
    have hdrop : (before.toList ++ '?' :: query.toList).dropWhile (fun c => !endsAuthority c) =
        before.toList.dropWhile (fun c => !endsAuthority c) ++ '?' :: query.toList := by
      rw [List.dropWhile_append]
      split
      · next hempty =>
        rw [List.dropWhile_cons_of_neg (by simp [hstop]), List.isEmpty_iff.mp hempty,
          List.nil_append]
      · rfl
    have htext : (before ++ "?" ++ query).toList = before.toList ++ '?' :: query.toList := by
      simp
    unfold splitAuthority
    rw [htext, htake, hdrop]
    refine Prod.ext rfl ?_
    rw [← String.toList_inj]
    simp

namespace SecretParameter

variable (p : SecretParameter)

theorem key_clean : '&' ∉ p.key.toList ∧ '=' ∉ p.key.toList := by
  have hkey := p.secret
  simp only [secretQueryKeys, List.mem_cons, List.not_mem_nil, or_false] at hkey
  rcases hkey with hkey | hkey <;> rw [hkey] <;> decide

theorem redactPair_pair (value : String) : redactPair (p.pair value) = p.key ++ "=<redacted>" := by
  have hsplit : Split.splitOnce '=' (p.pair value) = some (p.key, value) :=
    Split.splitOnce_eq_some_iff.mpr ⟨by simp [pair], p.key_clean.2⟩
  unfold redactPair
  rw [hsplit]
  exact if_pos p.secret

/-- A parameter is one of the pairs of its query, and its value none of the others. -/
theorem split_query : ∃ front back, ∀ value : String, '&' ∉ value.toList →
    Split.split '&' (p.query value) = front ++ p.pair value :: back := by
  have hpair : ∀ value : String, '&' ∉ value.toList →
      (p.pair value).toList.splitOn '&' = [(p.pair value).toList] := by
    intro value hvalue
    refine List.splitOn_eq_singleton ?_
    simp [pair, p.key_clean.1, hvalue]
  have hlater : ∃ back, ∀ value : String, '&' ∉ value.toList →
      ((p.pair value).toList ++ p.later.toList).splitOn '&' = (p.pair value).toList :: back := by
    rcases p.later_starts with hlater | ⟨q, hlater⟩
    · exact ⟨[], fun value hvalue => by rw [hlater]; simpa using hpair value hvalue⟩
    · refine ⟨q.toList.splitOn '&', fun value hvalue => ?_⟩
      have htext : (p.pair value).toList ++ p.later.toList =
          (p.pair value).toList ++ '&' :: q.toList := by
        rw [hlater]
        simp
      rw [htext, List.splitOn_append_cons_self, hpair value hvalue, List.singleton_append]
  obtain ⟨back, hback⟩ := hlater
  rcases p.earlier_ends with hearlier | ⟨q, hearlier⟩
  · refine ⟨[], back.map String.ofList, fun value hvalue => ?_⟩
    have htext : (p.query value).toList = (p.pair value).toList ++ p.later.toList := by
      simp [query, hearlier]
    unfold Split.split
    rw [htext, hback value hvalue, List.map_cons, String.ofList_toList, List.nil_append]
  · refine ⟨(q.toList.splitOn '&').map String.ofList, back.map String.ofList,
      fun value hvalue => ?_⟩
    have htext : (p.query value).toList =
        q.toList ++ '&' :: ((p.pair value).toList ++ p.later.toList) := by
      simp [query, hearlier]
    unfold Split.split
    rw [htext, List.splitOn_append_cons_self, hback value hvalue, List.map_append, List.map_cons,
      String.ofList_toList]

/-- Two values of a secret are redacted alike. -/
theorem redactQuery_query {v w : String} (hv : '&' ∉ v.toList) (hw : '&' ∉ w.toList) :
    redactQuery (p.query v) = redactQuery (p.query w) := by
  obtain ⟨front, back, hsplit⟩ := p.split_query
  unfold redactQuery
  rw [hsplit v hv, hsplit w hw, List.map_append, List.map_append, List.map_cons, List.map_cons,
    redactPair_pair, redactPair_pair]

theorem splitOnceText_url (value : String) :
    Split.splitOnceText "://" (p.url value) = some (p.scheme, p.rest value) := by
  obtain ⟨scheme', rest', hcut, hwhere⟩ := Redaction.splitOnceText_url p.scheme (p.rest value)
  rcases hwhere with ⟨rfl, rfl⟩ | ⟨-, hinfix⟩
  · exact hcut
  · exact absurd hinfix p.scheme_clean

/-- A query is redacted with its secret, or withheld with everything. -/
theorem redactRest_rest {v w : String} (hv : '&' ∉ v.toList) (hw : '&' ∉ w.toList) :
    redactRest p.scheme (p.rest v) = hidden ∨ redactRest p.scheme (p.rest w) = hidden ∨
      redactRest p.scheme (p.rest v) = redactRest p.scheme (p.rest w) := by
  by_cases hmark : '?' ∈ (p.userinfo ++ p.host).toList
  · -- A question mark in the userinfo hides the whole of every URL with it.
    have huser : '?' ∈ p.userinfo.toList := by
      rw [String.toList_append, List.mem_append] at hmark
      exact hmark.resolve_right p.host_clean
    rcases p.userinfo_ends with hnone | ⟨u, hu⟩
    · rw [hnone] at huser
      cases huser
    · have hmem : '?' ∈ u.toList := by
        rw [hu] at huser
        simpa using huser
      obtain ⟨before, later, hsplit⟩ := List.append_of_mem hmem
      have hends : endsAuthority '?' = true := rfl
      refine Or.inl (redactRest_of_cut _ before
        (later ++ '@' :: (p.host ++ "?" ++ p.query v).toList) ?_ hends ?_)
      · simp [rest, hu, hsplit]
      · simp
  · obtain ⟨authority, path, hpath, hcut⟩ := splitAuthority_query hmark
    have hrest : ∀ value, redactRest p.scheme (p.rest value) =
        if '@' ∈ (path ++ "?" ++ p.query value).toList then hidden
        else p.scheme ++ "://" ++ redactAuthority authority ++
          (path ++ "?" ++ redactQuery (p.query value)) := by
      intro value
      have htail : Split.splitOnce '?' (path ++ "?" ++ p.query value) =
          some (path, p.query value) :=
        Split.splitOnce_eq_some_iff.mpr ⟨by simp, hpath⟩
      unfold redactRest rest
      rw [hcut]
      simp only [redactTail, htail]
    rw [hrest v, hrest w]
    by_cases hatv : '@' ∈ (path ++ "?" ++ p.query v).toList
    · exact Or.inl (if_pos hatv)
    · by_cases hatw : '@' ∈ (path ++ "?" ++ p.query w).toList
      · exact Or.inr (Or.inl (if_pos hatw))
      · rw [if_neg hatv, if_neg hatw, p.redactQuery_query hv hw]
        exact Or.inr (Or.inr rfl)

end SecretParameter

end Query

/-- Printed URLs do not depend on a secret. Whatever the userinfo, all is withheld or
what is printed is the scheme's and the rest's alone; and whatever the value of a
secret query parameter, the URL is printed the same or withheld. -/
theorem redactUrl_secret :
    (∃ printed : String → String → String, ∀ scheme userinfo rest,
      redactUrl (scheme ++ "://" ++ (userinfo ++ "@" ++ rest)) = hidden ∨
        redactUrl (scheme ++ "://" ++ (userinfo ++ "@" ++ rest)) = printed scheme rest) ∧
    ∀ (p : SecretParameter) (v w : String), '&' ∉ v.toList → '&' ∉ w.toList →
      redactUrl (p.url v) = hidden ∨ redactUrl (p.url w) = hidden ∨
        redactUrl (p.url v) = redactUrl (p.url w) := by
  refine ⟨⟨shown, redactUrl_userinfo⟩, fun p v w hv hw => ?_⟩
  unfold redactUrl
  rw [p.splitOnceText_url, p.splitOnceText_url]
  exact p.redactRest_rest hv hw

/-- The password of a database's URL, in its query. -/
def databasePassword : SecretParameter where
  scheme := "postgres"
  userinfo := "oag@"
  host := "db/oag"
  earlier := "sslmode=require&"
  key := "password"
  later := "&connect_timeout=5"
  scheme_clean := fun h => absurd (h.subset (by decide : ':' ∈ _)) (by decide)
  userinfo_ends := Or.inr ⟨"oag", by decide⟩
  host_clean := by decide
  earlier_ends := Or.inr ⟨"sslmode=require", by decide⟩
  secret := by decide
  later_starts := Or.inr ⟨"connect_timeout=5", by decide⟩

theorem databasePassword_printed :
    redactUrl (databasePassword.url "a") = hidden ∨
      redactUrl (databasePassword.url "b=c?d/e") = hidden ∨
      redactUrl (databasePassword.url "a") = redactUrl (databasePassword.url "b=c?d/e") :=
  redactUrl_secret.2 databasePassword "a" "b=c?d/e" (by decide) (by decide)

end OpenAIGateway.Redaction
