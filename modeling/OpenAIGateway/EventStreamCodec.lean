import OpenAIGateway.EventStream
import OpenAIGateway.Framing

/-!
The event-stream reader against its writer. No byte string makes the reader
read outside its buffer or go round without consuming, so `take_messages` is
the drain of a length-delimited framing. Every message the writer frames is
one such frame, which gives the round trip for every way of cutting the bytes.
-/

set_option linter.all false

namespace OpenAIGateway.EventStream

open Bytes

theorem skip_spec (n : ℕ) (b : List UInt8) :
    skip n b = some none ∨
      ∃ value rest, skip n b = some (some (value, rest)) ∧ rest.length ≤ b.length := by
  unfold skip
  by_cases h : b.length < n
  · rw [if_pos h]
    exact Or.inl rfl
  · rw [if_neg h, slice?_length (by omega)]
    exact Or.inr ⟨none, b.drop n, rfl, by rw [List.length_drop]; omega⟩

theorem counted_spec (isString : Bool) (b : List UInt8) :
    counted isString b = some none ∨
      ∃ value rest, counted isString b = some (some (value, rest)) ∧ rest.length ≤ b.length := by
  unfold counted
  by_cases h : b.length < 2
  · rw [if_pos h]
    exact Or.inl rfl
  · obtain ⟨len, hlen⟩ := exists_u16At (b := b) (i := 0) (by omega)
    rw [if_neg h, hlen, Option.bind_eq_bind, Option.bind_some]
    by_cases hshort : b.length < 2 + len
    · rw [if_pos hshort]
      exact Or.inl rfl
    · rw [if_neg hshort, slice?_eq (by omega) (by omega), slice?_length (by omega)]
      exact Or.inr ⟨_, b.drop (2 + len), rfl, by rw [List.length_drop]; omega⟩

/-- A value is read inside the block, whatever its type, or the block is cut short. -/
theorem headerValue_spec (valueType : ℕ) (b : List UInt8) :
    headerValue valueType b = some none ∨
      ∃ value rest, headerValue valueType b = some (some (value, rest)) ∧
        rest.length ≤ b.length := by
  unfold headerValue
  split
  · exact Or.inr ⟨none, b, rfl, Nat.le_refl _⟩
  · exact Or.inr ⟨none, b, rfl, Nat.le_refl _⟩
  · apply skip_spec
  · apply skip_spec
  · apply skip_spec
  · apply skip_spec
  · apply counted_spec
  · apply counted_spec
  · apply skip_spec
  · apply skip_spec
  · exact Or.inl rfl

/-- A pass over the header block ends the loop or consumes at least two bytes. -/
theorem headerStep_spec (st : Headers × List UInt8) :
    (∃ headers, headerStep st = some (.done headers)) ∨
      ∃ st', headerStep st = some (.next st') ∧ st'.2.length + 2 ≤ st.2.length := by
  obtain ⟨headers, b⟩ := st
  unfold headerStep
  by_cases h : b.length < 2
  · exact Or.inl ⟨headers, if_pos h⟩
  · obtain ⟨first, hfirst⟩ : ∃ first, b[0]? = some first := ⟨b[0], by simp⟩
    simp only [if_neg h, hfirst, Option.bind_eq_bind, Option.bind_some]
    by_cases hname : b.length < 1 + first.toNat + 1
    · exact Or.inl ⟨headers, if_pos hname⟩
    · obtain ⟨valueType, htype⟩ : ∃ valueType, b[1 + first.toNat]? = some valueType :=
        ⟨b[1 + first.toNat], by simp⟩
      simp only [if_neg hname, htype, slice?_length (b := b) (show 1 + first.toNat + 1 ≤ b.length by omega),
        slice?_eq (b := b) (show 1 ≤ first.toNat + 1 by omega) (by omega), Option.bind_some]
      rcases headerValue_spec valueType.toNat (b.drop (1 + first.toNat + 1)) with
        hvalue | ⟨value, rest, hvalue, hlen⟩
      · rw [hvalue]
        exact Or.inl ⟨headers, rfl⟩
      · rw [hvalue]
        rw [List.length_drop] at hlen
        exact Or.inr ⟨_, rfl, by show rest.length + 2 ≤ b.length; omega⟩

theorem exists_parseHeaders (b : List UInt8) : ∃ headers, parseHeaders b = some headers := by
  apply Loop.exists_run (fun _ => True) (fun st => st.2.length) _ trivial
  · exact Nat.lt_succ_self _
  · intro st _
    rcases headerStep_spec st with hdone | ⟨st', hnext, hlen⟩
    · exact Or.inl hdone
    · exact Or.inr ⟨st', hnext, trivial, by omega⟩

/-- The front of any byte string is read inside it, and a message found there
is at least as long as its overhead and ends inside it. -/
theorem frontMessage_spec (rest : List UInt8) :
    frontMessage rest = some none ∨
      ∃ message total, frontMessage rest = some (some (message, total)) ∧
        overhead ≤ total ∧ total ≤ rest.length := by
  unfold frontMessage
  by_cases h : rest.length < preludeLen
  · exact Or.inl (if_pos h)
  · have hprelude : 12 ≤ rest.length := Nat.not_lt.mp h
    obtain ⟨total, htotal⟩ := exists_u32At (b := rest) (i := 0) (by omega)
    obtain ⟨headersLen, hheaders⟩ := exists_u32At (b := rest) (i := 4) (by omega)
    simp only [if_neg h, htotal, hheaders, Option.bind_eq_bind, Option.bind_some]
    by_cases hbad : ¬ (overhead ≤ total ∧ total ≤ maxMessageLen) ∨ total - overhead < headersLen
    · exact Or.inl (if_pos hbad)
    · by_cases hshort : rest.length < total
      · rw [if_neg hbad, if_pos hshort]
        exact Or.inl rfl
      · obtain ⟨hbounds, hfits⟩ := not_or.mp hbad
        have hover : overhead ≤ total := (not_not.mp hbounds).1
        have hsixteen : overhead = 16 := rfl
        have htwelve : preludeLen = 12 := rfl
        obtain ⟨headers, hparse⟩ :=
          exists_parseHeaders ((rest.take (preludeLen + headersLen)).drop preludeLen)
        rw [if_neg hbad, if_neg hshort, slice?_eq (by omega) (by omega), Option.bind_some, hparse,
          Option.bind_some, slice?_eq (by omega) (by omega)]
        exact Or.inr ⟨_, total, rfl, hover, Nat.not_lt.mp hshort⟩

/-- The message at the front of a buffer, as the frame of a length-delimited framing. -/
def nextMessage (rest : List UInt8) : Option (Message × ℕ) := (frontMessage rest).join

theorem frontMessage_eq (rest : List UInt8) : frontMessage rest = some (nextMessage rest) := by
  unfold nextMessage
  rcases frontMessage_spec rest with h | ⟨message, total, h, -⟩ <;> rw [h] <;> rfl

theorem nextMessage_bounds {rest : List UInt8} {message : Message} {total : ℕ}
    (h : nextMessage rest = some (message, total)) : overhead ≤ total ∧ total ≤ rest.length := by
  have hfront := frontMessage_eq rest
  rw [h] at hfront
  rcases frontMessage_spec rest with hnone | ⟨message', total', hsome, hbounds⟩
  · rw [hnone] at hfront
    cases hfront
  · rw [hsome] at hfront
    cases hfront
    exact hbounds

theorem nextMessage_nil : nextMessage [] = none := rfl

theorem takeStep_eq {buf : List UInt8} (out : List Message) {consumed : ℕ}
    (h : consumed ≤ buf.length) :
    takeStep buf (out, consumed) = some (match nextMessage (buf.drop consumed) with
      | none => .done (out, consumed)
      | some (message, total) => .next (out ++ [message], consumed + total)) := by
  simp only [takeStep, slice?_length h, frontMessage_eq, Option.bind_eq_bind, Option.bind_some]
  cases nextMessage (buf.drop consumed) <;> rfl

/-- The loop of `take_messages` from any point of the buffer drains what is left of it. -/
theorem run_takeStep {buf : List UInt8} (out : List Message) {consumed fuel : ℕ}
    (h : consumed ≤ buf.length) (hfuel : buf.length - consumed ≤ fuel) :
    ∃ consumed', consumed' ≤ buf.length ∧
      Loop.run (takeStep buf) (fuel + 1) (out, consumed) =
        some (out ++ (Framing.drain nextMessage fuel (buf.drop consumed)).1, consumed') ∧
      buf.drop consumed' = (Framing.drain nextMessage fuel (buf.drop consumed)).2 := by
  induction fuel generalizing out consumed with
  | zero =>
    have hend : buf.drop consumed = [] := List.drop_eq_nil_of_le (by omega)
    have hstep := takeStep_eq out h
    rw [hend, nextMessage_nil] at hstep
    exact ⟨consumed, h, by rw [Loop.run_done hstep]; simp [Framing.drain], rfl⟩
  | succ fuel ih =>
    have hstep := takeStep_eq out h
    cases hnext : nextMessage (buf.drop consumed) with
    | none =>
      rw [hnext] at hstep
      rw [Loop.run_done hstep, Framing.drain_none hnext]
      exact ⟨consumed, h, by simp, rfl⟩
    | some frame =>
      obtain ⟨message, total⟩ := frame
      rw [hnext] at hstep
      obtain ⟨hover, htotal⟩ := nextMessage_bounds hnext
      have hsixteen : overhead = 16 := rfl
      rw [List.length_drop] at htotal
      obtain ⟨consumed', hle, hrun, hdrop⟩ :=
        ih (out ++ [message]) (show consumed + total ≤ buf.length by omega) (by omega)
      rw [Loop.run_next hstep, Framing.drain_some hnext, List.drop_drop]
      exact ⟨consumed', hle, by rw [hrun]; simp, hdrop⟩

/-- On every byte string `take_messages` returns, and it drains the buffer of its messages. -/
theorem takeMessages_eq (buf : List UInt8) :
    takeMessages buf = some (Framing.drain nextMessage buf.length buf) := by
  obtain ⟨consumed, hle, hrun, hdrop⟩ :=
    run_takeStep [] (Nat.zero_le buf.length) (Nat.le_refl _)
  rw [Nat.sub_zero] at hrun hdrop
  simp only [takeMessages, hrun, Option.bind_eq_bind, Option.bind_some, slice?_length hle, hdrop,
    List.drop_zero, List.nil_append]
  rfl

theorem feed_eq (buf : List UInt8) (reads : List (List UInt8)) :
    feed buf reads = some (Framing.feed nextMessage buf reads) := by
  induction reads generalizing buf with
  | nil => rfl
  | cons read reads ih =>
    simp only [feed, takeMessages_eq, ih, Option.bind_eq_bind, Option.bind_some]
    rfl

/-- The value a header list gives a name: the last one. -/
def lastValue (headers : List (String × String)) (name : String) : Option String :=
  headers.reverse.lookup name

/-- What a reader is to see of the headers a message was written with. -/
def seen (headers : List (String × String)) : Headers where
  eventType := lastValue headers ":event-type"
  exceptionType := lastValue headers ":exception-type"
  messageType := lastValue headers ":message-type"
  errorCode := lastValue headers ":error-code"
  errorMessage := lastValue headers ":error-message"

def setAll (start : Headers) (headers : List (String × String)) : Headers :=
  headers.foldl (fun h kv => h.set kv.1 (some kv.2)) start

/-- Each field is written under its own name alone. -/
theorem set_fields (h : Headers) (name : String) (value : Option String) :
    (h.set name value).eventType = (if name = ":event-type" then value else h.eventType) ∧
    (h.set name value).exceptionType =
      (if name = ":exception-type" then value else h.exceptionType) ∧
    (h.set name value).messageType = (if name = ":message-type" then value else h.messageType) ∧
    (h.set name value).errorCode = (if name = ":error-code" then value else h.errorCode) ∧
    (h.set name value).errorMessage = (if name = ":error-message" then value else h.errorMessage) := by
  unfold Headers.set
  split_ifs <;> simp_all

/-- A field that `set` writes under one name ends as the last value of that name. -/
theorem setAll_field (field : Headers → Option String) (key : String)
    (hset : ∀ h name value, field (h.set name value) = if name = key then value else field h)
    (start : Headers) (headers : List (String × String)) :
    field (setAll start headers) = (lastValue headers key).or (field start) := by
  induction headers generalizing start with
  | nil => rfl
  | cons kv headers ih =>
    obtain ⟨name, value⟩ := kv
    have hstep : setAll start ((name, value) :: headers) =
        setAll (start.set name (some value)) headers := rfl
    rw [hstep, ih, hset]
    unfold lastValue
    rw [List.reverse_cons, List.lookup_append, List.lookup_singleton, Option.or_assoc]
    by_cases hkey : name = key
    · subst hkey
      simp
    · have hbeq : (key == name) = false := by simpa using Ne.symm hkey
      simp [hkey, hbeq]

theorem setAll_eq_seen (headers : List (String × String)) : setAll {} headers = seen headers := by
  have hfield : ∀ (field : Headers → Option String) (key : String),
      (∀ h name value, field (h.set name value) = if name = key then value else field h) →
      field {} = none → field (setAll {} headers) = lastValue headers key := by
    intro field key hset hnone
    rw [setAll_field field key hset, hnone, Option.or_none]
  apply Headers.ext
  · exact hfield _ _ (fun h name value => (set_fields h name value).1) rfl
  · exact hfield _ _ (fun h name value => (set_fields h name value).2.1) rfl
  · exact hfield _ _ (fun h name value => (set_fields h name value).2.2.1) rfl
  · exact hfield _ _ (fun h name value => (set_fields h name value).2.2.2.1) rfl
  · exact hfield _ _ (fun h name value => (set_fields h name value).2.2.2.2) rfl

theorem fromUtf8Lossy_asBytes (s : String) : fromUtf8Lossy (asBytes s) = s := by
  unfold fromUtf8Lossy asBytes
  rw [Utf8.lossy_encode, String.ofList_toList]

theorem encodeHeader_eq_some {name value : String} {bytes : List UInt8}
    (h : encodeHeader name value = some bytes) :
    (asBytes name).length < 2 ^ 8 ∧ (asBytes value).length < 2 ^ 16 ∧
      bytes = [UInt8.ofNat (asBytes name).length] ++ asBytes name ++ [7] ++
        toBeBytes 2 (asBytes value).length ++ asBytes value := by
  simp only [encodeHeader, Option.bind_eq_bind, Option.bind_eq_some_iff] at h
  obtain ⟨nameLen, hname, valueLen, hvalue, hbytes⟩ := h
  obtain ⟨rfl, hnameLt⟩ := tryFrom_eq_some hname
  obtain ⟨rfl, hvalueLt⟩ := tryFrom_eq_some hvalue
  exact ⟨hnameLt, hvalueLt, (Option.some.inj hbytes).symm⟩

theorem counted_string {value : String} (h : (asBytes value).length < 2 ^ 16) (rest : List UInt8) :
    counted true (toBeBytes 2 (asBytes value).length ++ asBytes value ++ rest) =
      some (some (some value, rest)) := by
  generalize hv : asBytes value = v at h ⊢
  have hlen : (toBeBytes 2 v.length ++ v ++ rest).length = 2 + v.length + rest.length := by
    simp only [List.length_append, length_toBeBytes]
  have hread : u16At (toBeBytes 2 v.length ++ v ++ rest) 0 = some v.length := by
    rw [List.append_assoc]
    exact u16At_toBeBytes (x := []) rfl h
  have hslice : slice? (toBeBytes 2 v.length ++ v ++ rest) 2 (2 + v.length) = some v :=
    slice?_append (length_toBeBytes 2 _).symm (by rw [length_toBeBytes])
  have hrest : (toBeBytes 2 v.length ++ v ++ rest).drop (2 + v.length) = rest :=
    List.drop_left' (by rw [List.length_append, length_toBeBytes])
  unfold counted
  rw [if_neg (by omega), hread, Option.bind_eq_bind, Option.bind_some, if_neg (by omega), hslice,
    slice?_length (by omega), hrest, ← hv]
  simp only [Option.bind_eq_bind, Option.bind_some, if_true, fromUtf8Lossy_asBytes]
  rfl

/-- One pass reads one written header back. -/
theorem headerStep_encodeHeader {name value : String} {bytes : List UInt8}
    (h : encodeHeader name value = some bytes) (headers : Headers) (rest : List UInt8) :
    headerStep (headers, bytes ++ rest) = some (.next (headers.set name (some value), rest)) := by
  obtain ⟨hname, hvalue, rfl⟩ := encodeHeader_eq_some h
  generalize htail : toBeBytes 2 (asBytes value).length ++ asBytes value ++ rest = tail
  have hb : [UInt8.ofNat (asBytes name).length] ++ asBytes name ++ [7] ++
      toBeBytes 2 (asBytes value).length ++ asBytes value ++ rest =
      [UInt8.ofNat (asBytes name).length] ++ asBytes name ++ (7 :: tail) := by
    rw [← htail]
    simp only [List.append_assoc, List.cons_append, List.nil_append]
  have hcounted : headerValue 7 tail = some (some (some value, rest)) := by
    rw [← htail]
    exact counted_string hvalue rest
  have hfirst : (UInt8.ofNat (asBytes name).length).toNat = (asBytes name).length := by
    rw [UInt8.toNat_ofNat']
    omega
  rw [hb]
  generalize hn : asBytes name = n at hname hfirst ⊢
  have hlen : ([UInt8.ofNat n.length] ++ n ++ 7 :: tail).length = 1 + n.length + 1 + tail.length := by
    simp only [List.length_append, List.length_cons, List.length_nil]
    omega
  have hslice : slice? ([UInt8.ofNat n.length] ++ n ++ 7 :: tail) 1 (n.length + 1) = some n :=
    slice?_append rfl (by simp only [List.length_cons, List.length_nil]; omega)
  have hhead : ([UInt8.ofNat n.length] ++ n).length = 1 + n.length := by
    rw [List.length_append, List.length_singleton]
  have htype : ([UInt8.ofNat n.length] ++ n ++ 7 :: tail)[1 + n.length]? = some 7 := by
    rw [List.getElem?_append_right (Nat.le_of_eq hhead)]
    rw [hhead, Nat.sub_self]
    rfl
  have hdrop : ([UInt8.ofNat n.length] ++ n ++ 7 :: tail).drop (1 + n.length + 1) = tail := by
    rw [← List.drop_drop, List.drop_left' hhead]
    rfl
  have hzero : ([UInt8.ofNat n.length] ++ n ++ 7 :: tail)[0]? = some (UInt8.ofNat n.length) := rfl
  generalize [UInt8.ofNat n.length] ++ n ++ 7 :: tail = b at hlen hslice htype hdrop hzero
  have hend : slice? b (1 + n.length + 1) b.length = some tail := by
    rw [slice?_length (by omega), hdrop]
  simp only [headerStep, if_neg (show ¬ b.length < 2 by omega), hzero, hfirst, hslice, htype, hend,
    if_neg (show ¬ b.length < 1 + n.length + 1 by omega), Option.bind_eq_bind, Option.bind_some]
  rw [← hn, fromUtf8Lossy_asBytes, show (7 : UInt8).toNat = 7 from rfl, hcounted]
  rfl

theorem run_headerStep {headers : List (String × String)} {block : List UInt8} {fuel : ℕ}
    (h : encodeHeaders headers = some block) (hfuel : block.length < fuel) (start : Headers) :
    Loop.run headerStep fuel (start, block) = some (setAll start headers) := by
  induction headers generalizing block fuel start with
  | nil =>
    obtain ⟨fuel, rfl⟩ : ∃ n, fuel = n + 1 := ⟨fuel - 1, by omega⟩
    obtain rfl : [] = block := Option.some.inj h
    exact Loop.run_done rfl
  | cons kv headers ih =>
    obtain ⟨name, value⟩ := kv
    simp only [encodeHeaders, Option.bind_eq_bind, Option.bind_eq_some_iff] at h
    obtain ⟨bytes, hbytes, rest, hrest, hblock⟩ := h
    obtain rfl : bytes ++ rest = block := Option.some.inj hblock
    obtain ⟨-, -, hshape⟩ := encodeHeader_eq_some hbytes
    have hpos : 0 < bytes.length := by
      rw [hshape]
      simp only [List.length_append, List.length_cons]
      omega
    rw [List.length_append] at hfuel
    obtain ⟨fuel, rfl⟩ : ∃ n, fuel = n + 1 := ⟨fuel - 1, by omega⟩
    rw [Loop.run_next (headerStep_encodeHeader hbytes start rest)]
    exact ih hrest (by omega) _

/-- A written header block is read back, the last header of a name winning. -/
theorem parseHeaders_encodeHeaders {headers : List (String × String)} {block : List UInt8}
    (h : encodeHeaders headers = some block) : parseHeaders block = some (seen headers) := by
  unfold parseHeaders
  rw [run_headerStep h (Nat.lt_succ_self _), setAll_eq_seen]

/-- The parts of a written message. -/
theorem encode_eq_some {headers : List (String × String)} {payload bytes : List UInt8}
    (h : encode headers payload = some bytes) :
    ∃ block crc crc' total, encodeHeaders headers = some block ∧ crc.length = 4 ∧ crc'.length = 4 ∧
      bytes.length = total ∧ total = overhead + block.length + payload.length ∧ total < 2 ^ 32 ∧
      bytes = toBeBytes 4 total ++ toBeBytes 4 block.length ++ crc ++ block ++ payload ++ crc' := by
  simp only [encode, Option.bind_eq_bind, Option.bind_eq_some_iff] at h
  obtain ⟨block, hblock, total, htotal, blockLen, hblockLen, hbytes⟩ := h
  obtain ⟨hsum, hlt⟩ := tryFrom_eq_some htotal
  obtain ⟨rfl, -⟩ := tryFrom_eq_some hblockLen
  have hlen : bytes.length = total := by
    rw [← Option.some.inj hbytes, ← hsum]
    simp only [List.length_append, length_toBeBytes]
    show 4 + 4 + 4 + block.length + payload.length + 4 = 16 + block.length + payload.length
    omega
  rw [hsum] at hlt
  exact ⟨block, _, _, total, hblock, length_toBeBytes 4 _, length_toBeBytes 4 _, hlen, hsum.symm,
    hlt, (Option.some.inj hbytes).symm⟩

/-- The length fields of a message that has begun to arrive. -/
theorem u32At_prelude {x y : List UInt8} (rest : List UInt8) {total blockLen : ℕ} (htotal : total < 2 ^ 32)
    (hblock : blockLen < 2 ^ 32) (h : x ++ y = toBeBytes 4 total ++ toBeBytes 4 blockLen ++ rest)
    (hprelude : preludeLen ≤ x.length) : u32At x 0 = some total ∧ u32At x 4 = some blockLen := by
  have htwelve : 12 ≤ x.length := hprelude
  rw [← u32At_append y (show 0 + 3 < x.length by omega),
    ← u32At_append y (show 4 + 3 < x.length by omega), h]
  constructor
  · rw [List.append_assoc]
    exact u32At_toBeBytes (x := []) rfl htotal
  · exact u32At_toBeBytes (length_toBeBytes 4 _).symm hblock

/-- A complete message is read back, whatever follows it. -/
theorem nextMessage_encode {headers : List (String × String)} {payload bytes : List UInt8}
    (h : encode headers payload = some bytes) (hmax : bytes.length ≤ maxMessageLen)
    (rest : List UInt8) :
    nextMessage (bytes ++ rest) = some (⟨seen headers, payload⟩, bytes.length) := by
  obtain ⟨block, crc, crc', total, hblock, hcrc, hcrc', hlen, hsum, hlt, hshape⟩ := encode_eq_some h
  have hover : overhead = preludeLen + 4 := rfl
  have htwelve : preludeLen = 12 := rfl
  have hbuf : (bytes ++ rest).length = total + rest.length := by rw [List.length_append, hlen]
  obtain ⟨hread, hread'⟩ := u32At_prelude (x := bytes ++ rest) (y := [])
    (crc ++ block ++ payload ++ crc' ++ rest) hlt (show block.length < 2 ^ 32 by omega)
    (by rw [hshape]; simp only [List.append_assoc, List.append_nil]) (by omega)
  -- The prelude, and the prelude with the headers, as the parts before the two slices.
  have hprelude : (toBeBytes 4 total ++ toBeBytes 4 block.length ++ crc).length = preludeLen := by
    simp only [List.length_append, length_toBeBytes, hcrc]
    rfl
  have hheaders : slice? (bytes ++ rest) preludeLen (preludeLen + block.length) = some block := by
    rw [hshape, List.append_assoc _ crc', List.append_assoc _ payload]
    exact slice?_append hprelude.symm (by rw [hprelude])
  have hpayload : slice? (bytes ++ rest) (preludeLen + block.length) (total - 4) = some payload := by
    rw [hshape, List.append_assoc _ crc']
    exact slice?_append (by rw [List.length_append, hprelude])
      (by rw [List.length_append, hprelude]; omega)
  generalize bytes ++ rest = buf at hbuf hread hread' hheaders hpayload
  unfold nextMessage frontMessage
  rw [if_neg (show ¬ buf.length < preludeLen by omega), hread]
  simp only [hread', Option.bind_eq_bind, Option.bind_some]
  rw [if_neg (by omega), if_neg (by omega), hheaders, Option.bind_some,
    parseHeaders_encodeHeaders hblock, Option.bind_some, hpayload, Option.bind_some, hlen]
  rfl

/-- A message that has not arrived completely is waited for. -/
theorem nextMessage_incomplete {headers : List (String × String)} {payload bytes x y : List UInt8}
    (h : encode headers payload = some bytes) (hx : x ++ y = bytes) (hy : y ≠ []) :
    nextMessage x = none := by
  obtain ⟨block, crc, crc', total, hblock, hcrc, hcrc', hlen, hsum, hlt, hshape⟩ := encode_eq_some h
  have hshort : x.length < total := by
    have := List.length_pos_of_ne_nil hy
    rw [← hlen, ← hx, List.length_append]
    omega
  unfold nextMessage frontMessage
  by_cases hprelude : x.length < preludeLen
  · rw [if_pos hprelude]
    rfl
  · obtain ⟨hread, hread'⟩ := u32At_prelude (x := x) (y := y)
      (crc ++ block ++ payload ++ crc') hlt (show block.length < 2 ^ 32 by omega)
      (by rw [hx, hshape]; simp only [List.append_assoc]) (by omega)
    rw [if_neg hprelude, hread]
    simp only [hread', Option.bind_eq_bind, Option.bind_some, if_pos hshort, ite_self]
    rfl

theorem headerStep_consumes {st st' : Headers × List UInt8}
    (h : headerStep st = some (.next st')) : st'.2.length < st.2.length := by
  rcases headerStep_spec st with ⟨headers, hdone⟩ | ⟨st'', hnext, hlen⟩
  · rw [hdone] at h
    cases h
  · rw [hnext] at h
    cases h
    omega

theorem takeStep_consumes {buf : List UInt8} {st st' : List Message × ℕ}
    (h : takeStep buf st = some (.next st')) : st.2 < st'.2 ∧ st'.2 ≤ buf.length := by
  obtain ⟨out, consumed⟩ := st
  by_cases hle : consumed ≤ buf.length
  · rw [takeStep_eq out hle] at h
    cases hnext : nextMessage (buf.drop consumed) with
    | none =>
      rw [hnext] at h
      cases h
    | some frame =>
      obtain ⟨message, total⟩ := frame
      obtain ⟨hover, htotal⟩ := nextMessage_bounds hnext
      rw [hnext] at h
      cases h
      have hsixteen : overhead = 16 := rfl
      rw [List.length_drop] at htotal
      show consumed < consumed + total ∧ consumed + total ≤ buf.length
      omega
  · have hslice : slice? buf consumed buf.length = none := if_neg (fun hin => hle hin.1)
    simp only [takeStep, hslice, Option.bind_eq_bind, Option.bind_none] at h
    cases h

/-- A message as it was given to the writer, with the bytes it was written as. -/
structure Written where
  headers : List (String × String)
  payload : List UInt8
  bytes : List UInt8
  encoded : encode headers payload = some bytes
  fits : bytes.length ≤ maxMessageLen

/-- The message a reader is to get. -/
def Written.message (w : Written) : Message := ⟨seen w.headers, w.payload⟩

theorem reads_written (w : Written) : Framing.Reads nextMessage Written.bytes Written.message w where
  nonempty := by
    obtain ⟨block, crc, crc', total, -, -, -, hlen, hsum, -⟩ := encode_eq_some w.encoded
    have hover : overhead = 16 := rfl
    intro hnil
    rw [hnil, List.length_nil] at hlen
    omega
  complete := nextMessage_encode w.encoded w.fits
  incomplete := fun x y hx hy => nextMessage_incomplete w.encoded hx hy

theorem feed_written (ws : List Written) {reads : List (List UInt8)}
    (hcut : reads.flatten = ws.flatMap Written.bytes) :
    feed [] reads = some (ws.map Written.message, []) := by
  rw [feed_eq]
  congr 1
  exact Framing.feed_flatMap nextMessage_nil (fun w _ => reads_written w) hcut (fun _ => rfl)

/-- Messages that fit are read back in order, each once and whole, however
their bytes are cut into reads, and leave the buffer empty. On any bytes both
loops of the reader stay inside their buffer, end, and consume with every pass. -/
theorem takeMessages_codec :
    (∀ (ws : List Written) (reads : List (List UInt8)),
      reads.flatten = ws.flatMap Written.bytes →
        feed [] reads = some (ws.map Written.message, [])) ∧
    (∀ buf, ∃ out rest, takeMessages buf = some (out, rest)) ∧
    (∀ b, ∃ headers, parseHeaders b = some headers) ∧
    (∀ buf st st', takeStep buf st = some (.next st') → st.2 < st'.2 ∧ st'.2 ≤ buf.length) ∧
    (∀ st st', headerStep st = some (.next st') → st'.2.length < st.2.length) :=
  ⟨fun ws _ hcut => feed_written ws hcut, fun buf => ⟨_, _, takeMessages_eq buf⟩,
    exists_parseHeaders, fun _ _ _ => takeStep_consumes, fun _ _ => headerStep_consumes⟩

/-- A message of one header and three payload bytes. -/
def chunk : Written where
  headers := [(":event-type", "chunk")]
  payload := [1, 2, 3]
  bytes := [0, 0, 0, 39, 0, 0, 0, 20, 12, 25, 248, 0, 11, 58, 101, 118, 101, 110, 116, 45, 116, 121,
    112, 101, 7, 0, 5, 99, 104, 117, 110, 107, 1, 2, 3, 68, 152, 228, 43]
  encoded := by decide +kernel
  fits := by decide

/-- Two messages in three reads, cut inside the first prelude and inside the second payload. -/
theorem takeMessages_codec_two_chunks :
    feed [] [chunk.bytes.take 5, chunk.bytes.drop 5 ++ chunk.bytes.take 33, chunk.bytes.drop 33] =
      some ([⟨{ eventType := some "chunk" }, [1, 2, 3]⟩, ⟨{ eventType := some "chunk" }, [1, 2, 3]⟩],
        []) :=
  takeMessages_codec.1 [chunk, chunk] _ rfl

end OpenAIGateway.EventStream
