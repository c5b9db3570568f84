import ApueCode.Gethost.Model
import ApueCode.Getifaddrs.Walk

/-! What can be read off the output of `gethost`, and which ports it gets wrong. -/

namespace ApueCode.Gethost

open Posix Getifaddrs

variable {order : ByteOrder} {inet_ntop : SaFamily → List Byte → ℕ → Option String} {aip aip' : Addrinfo}
  {l l' : List Addrinfo} {getaddrinfo : String → Option String → Except String (List Addrinfo)}
  {getaddrinfo' : String → Option String → Except String (List Addrinfo)} {prog prog' host host' : String}
  {service service' : Option String} {names : List (ℤ × String)} {other : String} {m n : ℤ}

def Addrinfo.servicePort (aip : Addrinfo) : BitVec 16 := ByteOrder.big.uint16 aip.ai_addr.sa_data

def expected (inet_ntop : SaFamily → List Byte → ℕ → Option String) (l : List Addrinfo) : List Char :=
  l.flatMap fun aip => heading inet_ntop aip ++ (decimal aip.servicePort.toNat ++ ['\n'])

lemma port_eq_servicePort : aip.port order = aip.servicePort ↔
    aip.ai_family = AF_INET.toNat ∨ order = .big ∨ aip.ai_addr.sa_data.getD 0 0 = aip.ai_addr.sa_data.getD 1 0 := by
  unfold Addrinfo.port Addrinfo.servicePort
  by_cases h : aip.ai_family = AF_INET.toNat
  · simp [h]
  · simp only [h, if_false, false_or, ByteOrder.uint16_eq_big]

lemma entries_eq_expected : l.flatMap (entry order inet_ntop) = expected inet_ntop l ↔
    ∀ aip ∈ l, aip.port order = aip.servicePort := by
  induction l with
  | nil => simp [expected]
  | cons aip l ih =>
    rw [List.forall_mem_cons, ← ih, List.flatMap_cons, expected, List.flatMap_cons, ← expected, entry]
    constructor
    · intro h
      have hcut := List.append_cancel_left (by simpa only [List.append_assoc] using h)
      obtain ⟨hport, hrest⟩ := decimal_append_inj (noDigit_cons rfl) (noDigit_cons rfl) hcut
      exact ⟨BitVec.eq_of_toNat_eq hport, (List.cons.inj hrest).2⟩
    · rintro ⟨hport, hrest⟩
      rw [hport, hrest]

lemma main_eq_answer : main order inet_ntop getaddrinfo (prog :: host :: service.toList) =
    answer order inet_ntop getaddrinfo host service := by
  cases service <;> rfl

/-- The ports that are printed are those of the answer if and only if every `AF_INET6` entry has a port of two equal
bytes, or the machine has the byte order of the network. -/
theorem ports_right_iff (h : getaddrinfo host service = .ok l) :
    (main order inet_ntop getaddrinfo (prog :: host :: service.toList)).stdout = expected inet_ntop l ↔
      ∀ aip ∈ l, aip.ai_family = AF_INET.toNat ∨ order = .big ∨
        aip.ai_addr.sa_data.getD 0 0 = aip.ai_addr.sa_data.getD 1 0 := by
  rw [main_eq_answer, answer, h]
  simp only [entries_eq_expected, port_eq_servicePort]

structure Alike (inet_ntop : SaFamily → List Byte → ℕ → Option String) (aip aip' : Addrinfo) : Prop where
  flags : ∀ f ∈ flagNames, aip.ai_flags &&& f.1 = 0 ↔ aip'.ai_flags &&& f.1 = 0
  flagless : aip.ai_flags = 0 ↔ aip'.ai_flags = 0
  family : aip.ai_family = aip'.ai_family
  socktype : aip.ai_socktype = aip'.ai_socktype
  protocol : aip.ai_protocol = aip'.ai_protocol
  host : aip.host = aip'.host
  address : aip.address inet_ntop = aip'.address inet_ntop
  port : aip.servicePort = aip'.servicePort

lemma port_eq_iff (h : aip.ai_family = aip'.ai_family) :
    aip.port order = aip'.port order ↔ aip.servicePort = aip'.servicePort := by
  unfold Addrinfo.port Addrinfo.servicePort
  rw [h]
  split
  · rw [ByteOrder.ntohs_uint16, ByteOrder.ntohs_uint16]
  · exact ByteOrder.uint16_inj

def numberWords (names : List (ℤ × String)) (other : String) (n : ℤ) : List (List Char) :=
  match names.lookup n with
  | some name => [name.toList]
  | none => [other.toList, '(' :: (signedDecimal n ++ [')'])]

lemma words_numberWords : words (numberWords names other n) =
    ' ' :: switch names (fun n => other.toList ++ (" (".toList ++ (signedDecimal n ++ ")".toList))) n := by
  unfold numberWords switch
  cases names.lookup n with
  | none => simp [words]
  | some name => simp [words]

lemma mem_of_lookup {name : String} (h : names.lookup n = some name) : (n, name) ∈ names := by
  obtain ⟨pre, post, rfl, -⟩ := List.lookup_eq_some_iff.mp h
  simp

lemma numberWords_inj (hn : (names.map Prod.snd).Nodup) (h : numberWords names other m = numberWords names other n) :
    m = n := by
  unfold numberWords at h
  cases hm : names.lookup m with
  | none =>
    cases hn : names.lookup n with
    | none =>
      simp only [hm, hn, List.cons.injEq, true_and, and_true] at h
      exact (signedDecimal_append_inj (noDigit_cons rfl) (noDigit_cons rfl) h).1
    | some name => simp [hm, hn] at h
  | some name =>
    cases hn' : names.lookup n with
    | none => simp [hm, hn'] at h
    | some name' =>
      simp only [hm, hn', List.cons.injEq, and_true] at h
      obtain rfl := String.toList_injective h
      exact congrArg Prod.fst (List.inj_on_of_nodup_map hn (mem_of_lookup hm) (mem_of_lookup hn') rfl)

def Bare (w : List Char) : Prop := ' ' ∉ w ∧ '\n' ∉ w

instance (w : List Char) : Decidable (Bare w) := inferInstanceAs (Decidable (_ ∧ _))

lemma bare_decimal (k : ℕ) : Bare (decimal k) := ⟨notMem_decimal rfl, notMem_decimal rfl⟩

lemma bare_of_all (h : names.all (fun p => Bare p.2.toList) = true) {p : ℤ × String} (hp : p ∈ names) :
    Bare p.2.toList := by
  simpa using List.all_eq_true.mp h p hp

lemma bare_numberWords (hn : names.all (fun p => Bare p.2.toList) = true) (ho : Bare other.toList) {w : List Char}
    (hw : w ∈ numberWords names other n) : Bare w := by
  unfold numberWords at hw
  cases hl : names.lookup n with
  | none =>
    simp only [hl, List.mem_cons, List.not_mem_nil, or_false] at hw
    rcases hw with rfl | rfl
    · exact ho
    · simp [Bare, notMem_signedDecimal]
  | some name =>
    simp only [hl, List.mem_singleton] at hw
    exact hw ▸ bare_of_all hn (mem_of_lookup hl)

def flagWords (flags : CInt) : List (List Char) :=
  if flags = 0 then ["0".toList] else (shownFlags flags).map fun f => f.2.toList

lemma mem_flagWords {flags : CInt} (h : flags ≠ 0) {w : List Char} :
    w ∈ flagWords flags ↔ ∃ f ∈ flagNames, flags &&& f.1 ≠ 0 ∧ f.2.toList = w := by
  rw [flagWords, if_neg h]
  simp [shownFlags, and_assoc]

lemma bare_flagWords {flags : CInt} {w : List Char} (hw : w ∈ flagWords flags) : Bare w := by
  by_cases h : flags = 0
  · simp only [flagWords, h, if_true, List.mem_singleton] at hw
    subst hw
    decide
  · obtain ⟨f, hf, -, rfl⟩ := (mem_flagWords h).mp hw
    have hall : flagNames.all (fun f => Bare f.2.toList) = true := rfl
    simpa using List.all_eq_true.mp hall f hf

lemma family_notMem_flagWords (flags : CInt) : "family:".toList ∉ flagWords flags := by
  by_cases h : flags = 0
  · simp [flagWords, h]
  · intro hw
    obtain ⟨f, hf, -, he⟩ := (mem_flagWords h).mp hw
    have hall : flagNames.all (fun f => f.2.toList ≠ "family:".toList) = true := rfl
    have hne := List.all_eq_true.mp hall f hf
    simp [he] at hne

lemma eq_zero_of_flagWords {flags : CInt} (h : flagWords flags = flagWords 0) : flags = 0 := by
  by_contra hne
  have hw : "0".toList ∈ flagWords flags := by
    rw [h]
    exact List.mem_singleton.mpr rfl
  obtain ⟨f, hf, -, he⟩ := (mem_flagWords hne).mp hw
  have hall : flagNames.all (fun f => f.2.toList ≠ "0".toList) = true := rfl
  have hno := List.all_eq_true.mp hall f hf
  simp [he] at hno

lemma name_mem_flagWords {flags : CInt} (h : flags ≠ 0) {f : CInt × String} (hf : f ∈ flagNames) :
    f.2.toList ∈ flagWords flags ↔ flags &&& f.1 ≠ 0 := by
  rw [mem_flagWords h]
  constructor
  · rintro ⟨f', hf', hbit, he⟩
    have hnodup : (flagNames.map Prod.snd).Nodup := by decide
    rwa [List.inj_on_of_nodup_map hnodup hf' hf (String.toList_injective he)] at hbit
  · exact fun hbit => ⟨f, hf, hbit, rfl⟩

lemma flagWords_inj {flags flags' : CInt} (h : flagWords flags = flagWords flags') :
    (flags = 0 ↔ flags' = 0) ∧ ∀ f ∈ flagNames, flags &&& f.1 = 0 ↔ flags' &&& f.1 = 0 := by
  by_cases h0 : flags = 0
  · subst h0
    obtain rfl := eq_zero_of_flagWords h.symm
    simp
  · have h0' : flags' ≠ 0 := by
      rintro rfl
      exact h0 (eq_zero_of_flagWords h)
    refine ⟨iff_of_false h0 h0', fun f hf => not_iff_not.mp ?_⟩
    have hname := name_mem_flagWords h0 hf
    rw [h] at hname
    exact hname.symm.trans (name_mem_flagWords h0' hf)

def familyWord (aip : Addrinfo) : List Char := switch familyNames (fun _ => "unknown".toList) aip.ai_family

def detailWords (aip : Addrinfo) : List (List Char) :=
  flagWords aip.ai_flags ++ "family:".toList :: familyWord aip :: "type:".toList ::
    (numberWords typeNames "unknown" aip.ai_socktype ++
      "protocol:".toList :: numberWords protocolNames "unkonwn" aip.ai_protocol)

def addressWords (order : ByteOrder) (inet_ntop : SaFamily → List Byte → ℕ → Option String) (aip : Addrinfo) :
    List (List Char) :=
  [aip.host.toList, "address:".toList, (aip.address inet_ntop).toList, "port:".toList,
    decimal (aip.port order).toNat]

def entryLines (order : ByteOrder) (inet_ntop : SaFamily → List Byte → ℕ → Option String) (aip : Addrinfo) :
    List (List Char) :=
  ["flags:".toList ++ words (detailWords aip), "\thost:".toList ++ words (addressWords order inet_ntop aip)]

lemma words_flagWords (aip : Addrinfo) : "flags:".toList ++ words (flagWords aip.ai_flags) = print_flags aip := by
  unfold flagWords print_flags words
  by_cases h : aip.ai_flags = 0
  · simp only [h, if_true]
    rfl
  · simp only [h, if_false, List.flatMap_map]

lemma words_family (aip : Addrinfo) : words ["family:".toList, familyWord aip] = print_family aip := by
  have hpair : ∀ word, words ["family:".toList, word] = " family: ".toList ++ word := by simp [words]
  unfold print_family familyWord
  exact hpair _

lemma words_type (aip : Addrinfo) :
    words ("type:".toList :: numberWords typeNames "unknown" aip.ai_socktype) = print_type aip := by
  rw [words_cons, words_numberWords]
  rfl

lemma words_protocol (aip : Addrinfo) :
    words ("protocol:".toList :: numberWords protocolNames "unkonwn" aip.ai_protocol) = print_protocol aip := by
  rw [words_cons, words_numberWords]
  rfl

lemma words_details (aip : Addrinfo) : "flags:".toList ++ words (detailWords aip) =
    print_flags aip ++ (print_family aip ++ (print_type aip ++ print_protocol aip)) := by
  rw [← words_flagWords, ← words_family, ← words_type, ← words_protocol]
  simp only [← words_append, List.append_assoc]
  rfl

lemma entry_eq_unlines : entry order inet_ntop aip = unlines (entryLines order inet_ntop aip) := by
  have hlast : words (addressWords order inet_ntop aip) = ' ' :: (aip.host.toList ++ (" address: ".toList ++
      ((aip.address inet_ntop).toList ++ (" port: ".toList ++ decimal (aip.port order).toNat)))) := by
    simp [addressWords, words]
  rw [entryLines, unlines_cons, unlines_cons, words_details, hlast, entry, heading]
  simp only [List.append_assoc, List.cons_append]
  rfl

lemma bare_familyWord (aip : Addrinfo) : Bare (familyWord aip) := by
  unfold familyWord switch
  cases hl : familyNames.lookup aip.ai_family with
  | none => exact (by decide : Bare "unknown".toList)
  | some name => exact bare_of_all (by decide +kernel) (mem_of_lookup hl)

lemma bare_detailWords {w : List Char} (hw : w ∈ detailWords aip) : Bare w := by
  simp only [detailWords, List.mem_append, List.mem_cons] at hw
  rcases hw with hw | rfl | rfl | rfl | hw | rfl | hw
  · exact bare_flagWords hw
  · decide
  · exact bare_familyWord aip
  · decide
  · exact bare_numberWords (by decide +kernel) (by decide) hw
  · decide
  · exact bare_numberWords (by decide +kernel) (by decide) hw

structure Addrinfo.Plain (inet_ntop : SaFamily → List Byte → ℕ → Option String) (aip : Addrinfo) : Prop where
  host : Bare aip.host.toList
  address : Bare (aip.address inet_ntop).toList

lemma bare_addressWords (h : aip.Plain inet_ntop) {w : List Char} (hw : w ∈ addressWords order inet_ntop aip) :
    Bare w := by
  simp only [addressWords, List.mem_cons, List.not_mem_nil, or_false] at hw
  rcases hw with rfl | rfl | rfl | rfl | rfl
  · exact h.host
  · decide
  · exact h.address
  · decide
  · exact bare_decimal _

lemma newline_notMem_words {ws : List (List Char)} (h : ∀ w ∈ ws, Bare w) : '\n' ∉ words ws := by
  simp only [words, List.mem_flatMap, List.mem_cons, not_exists, not_and, not_or]
  exact fun w hw => ⟨by decide, (h w hw).2⟩

lemma newline_notMem_entryLines (h : aip.Plain inet_ntop) : ∀ line ∈ entryLines order inet_ntop aip, '\n' ∉ line := by
  intro line hl
  simp only [entryLines, List.mem_cons, List.not_mem_nil, or_false] at hl
  rcases hl with rfl | rfl
  · exact List.not_mem_append (by decide) (newline_notMem_words fun w hw => bare_detailWords hw)
  · exact List.not_mem_append (by decide) (newline_notMem_words fun w hw => bare_addressWords h hw)

lemma protocol_notMem_typeWords (n : ℤ) : "protocol:".toList ∉ numberWords typeNames "unknown" n := by
  unfold numberWords
  cases hl : typeNames.lookup n with
  | none => simp
  | some name =>
    have hall : typeNames.all (fun p => p.2.toList ≠ "protocol:".toList) = true := rfl
    have hne := List.all_eq_true.mp hall _ (mem_of_lookup hl)
    simp only [List.mem_singleton]
    intro he
    simp [← he] at hne

lemma family_eq_of_word (h : familyWord aip = familyWord aip') : aip.ai_family = aip'.ai_family := by
  have hcases : ∀ a : Addrinfo, a.ai_family = AF_INET.toNat ∧ familyWord a = "inet".toList ∨
      a.ai_family = AF_INET6.toNat ∧ familyWord a = "inet6".toList := by
    intro a
    unfold familyWord
    rw [a.family]
    rcases a.internet with hf | hf
    · exact .inl ⟨by rw [hf], by rw [hf]; rfl⟩
    · exact .inr ⟨by rw [hf], by rw [hf]; rfl⟩
  rcases hcases aip with ⟨hf, hw⟩ | ⟨hf, hw⟩ <;> rcases hcases aip' with ⟨hf', hw'⟩ | ⟨hf', hw'⟩
  · rw [hf, hf']
  · rw [hw, hw'] at h
    simp at h
  · rw [hw, hw'] at h
    simp at h
  · rw [hf, hf']

lemma detailWords_inj (h : detailWords aip = detailWords aip') :
    flagWords aip.ai_flags = flagWords aip'.ai_flags ∧ aip.ai_family = aip'.ai_family ∧
      aip.ai_socktype = aip'.ai_socktype ∧ aip.ai_protocol = aip'.ai_protocol := by
  obtain ⟨hflags, hrest⟩ := marker_inj (family_notMem_flagWords _) (family_notMem_flagWords _) h
  simp only [List.cons.injEq, true_and] at hrest
  obtain ⟨htype, hprotocol⟩ := marker_inj (protocol_notMem_typeWords _) (protocol_notMem_typeWords _) hrest.2
  exact ⟨hflags, family_eq_of_word hrest.1, numberWords_inj (by decide) htype, numberWords_inj (by decide) hprotocol⟩

lemma alike_of_entryLines (h : aip.Plain inet_ntop) (h' : aip'.Plain inet_ntop)
    (he : entryLines order inet_ntop aip = entryLines order inet_ntop aip') : Alike inet_ntop aip aip' := by
  simp only [entryLines, List.cons.injEq, and_true, List.append_cancel_left_eq] at he
  have hdetails := words_inj (fun w hw => (bare_detailWords hw).1) (fun w hw => (bare_detailWords hw).1) he.1
  have haddress := words_inj (fun w hw => (bare_addressWords h hw).1) (fun w hw => (bare_addressWords h' hw).1) he.2
  obtain ⟨hflags, hfamily, htype, hprotocol⟩ := detailWords_inj hdetails
  simp only [addressWords, List.cons.injEq, and_true, true_and] at haddress
  have hport := BitVec.eq_of_toNat_eq (decimal_injective haddress.2.2)
  exact {
    flags := (flagWords_inj hflags).2
    flagless := (flagWords_inj hflags).1
    family := hfamily
    socktype := htype
    protocol := hprotocol
    host := String.toList_injective haddress.1
    address := String.toList_injective haddress.2.1
    port := (port_eq_iff hfamily).mp hport }

lemma entry_eq_of_alike (h : Alike inet_ntop aip aip') : entry order inet_ntop aip = entry order inet_ntop aip' := by
  have hshown : shownFlags aip.ai_flags = shownFlags aip'.ai_flags :=
    List.filter_congr fun f hf => by simp only [ne_eq, h.flags f hf]
  have hflags : print_flags aip = print_flags aip' := by
    unfold print_flags
    simp only [h.flagless, hshown]
  have hfamily : print_family aip = print_family aip' := by
    unfold print_family
    rw [h.family]
  have htype : print_type aip = print_type aip' := by
    unfold print_type
    rw [h.socktype]
  have hprotocol : print_protocol aip = print_protocol aip' := by
    unfold print_protocol
    rw [h.protocol]
  rw [entry, entry, heading, heading, hflags, hfamily, htype, hprotocol, h.host, h.address,
    (port_eq_iff h.family).mpr h.port]

lemma entries_eq_unlines (l : List Addrinfo) :
    l.flatMap (entry order inet_ntop) = unlines (l.flatMap (entryLines order inet_ntop)) := by
  induction l with
  | nil => rfl
  | cons aip l ih => rw [List.flatMap_cons, List.flatMap_cons, unlines_append, ih, entry_eq_unlines]

lemma forall₂_of_entryLines (h : ∀ aip ∈ l, aip.Plain inet_ntop) (h' : ∀ aip ∈ l', aip.Plain inet_ntop)
    (he : l.flatMap (entryLines order inet_ntop) = l'.flatMap (entryLines order inet_ntop)) :
    List.Forall₂ (Alike inet_ntop) l l' := by
  induction l generalizing l' with
  | nil =>
    cases l' with
    | nil => exact .nil
    | cons aip' l' => simp [entryLines] at he
  | cons aip l ih =>
    cases l' with
    | nil => simp [entryLines] at he
    | cons aip' l' =>
      rw [List.flatMap_cons, List.flatMap_cons] at he
      obtain ⟨hhead, htail⟩ := List.append_inj he rfl
      exact .cons (alike_of_entryLines (h aip (by simp)) (h' aip' (by simp)) hhead)
        (ih (fun a ha => h a (by simp [ha])) (fun a ha => h' a (by simp [ha])) htail)

lemma entries_eq_iff (h : ∀ aip ∈ l, aip.Plain inet_ntop) (h' : ∀ aip ∈ l', aip.Plain inet_ntop) :
    l.flatMap (entry order inet_ntop) = l'.flatMap (entry order inet_ntop) ↔ List.Forall₂ (Alike inet_ntop) l l' := by
  constructor
  · intro he
    rw [entries_eq_unlines, entries_eq_unlines] at he
    have hlines : ∀ {k : List Addrinfo}, (∀ aip ∈ k, aip.Plain inet_ntop) →
        ∀ line ∈ k.flatMap (entryLines order inet_ntop), '\n' ∉ line := by
      intro k hk line hl
      obtain ⟨aip, ha, hl⟩ := List.mem_flatMap.mp hl
      exact newline_notMem_entryLines (hk aip ha) line hl
    exact forall₂_of_entryLines h h' (unlines_inj (hlines h) (hlines h') he)
  · intro he
    clear h h'
    induction he with
    | nil => rfl
    | cons ha _ ih => rw [List.flatMap_cons, List.flatMap_cons, entry_eq_of_alike ha, ih]

/-- Two answers are printed alike if and only if they have as many entries, and none that differs from its counterpart
in a flag with a name, in the family, type or protocol, in the host or address, or in the port. -/
theorem prints_alike_iff (ha : getaddrinfo host service = .ok l) (ha' : getaddrinfo' host' service' = .ok l')
    (h : ∀ aip ∈ l, aip.Plain inet_ntop) (h' : ∀ aip ∈ l', aip.Plain inet_ntop) :
    main order inet_ntop getaddrinfo (prog :: host :: service.toList) =
      main order inet_ntop getaddrinfo' (prog' :: host' :: service'.toList) ↔ List.Forall₂ (Alike inet_ntop) l l' := by
  rw [main_eq_answer, main_eq_answer, answer, answer, ha, ha']
  simp only [Outcome.mk.injEq, and_true]
  exact entries_eq_iff h h'

def stream (flags : CInt) (canonname : Option String) (addr : Sockaddr)
    (h : addr.sa_family = AF_INET ∨ addr.sa_family = AF_INET6) : Addrinfo where
  ai_flags := flags
  ai_family := addr.sa_family.toNat
  ai_socktype := 1
  ai_protocol := 6
  ai_canonname := canonname
  ai_addr := addr
  internet := h
  family := rfl

def addr4 : Sockaddr where
  sa_family := AF_INET
  sa_data := [0, 80, 192, 0, 2, 1]
  inet := by decide
  inet6 := by decide

def addr6 (high low : Byte) : Sockaddr where
  sa_family := AF_INET6
  sa_data := high :: low :: [0, 0, 0, 0, 0x20, 0x01, 0x0d, 0xb8, 0, 1, 0, 2, 0, 3, 0, 4, 0, 5, 0, 6]
  inet := fun h => absurd h (by decide)
  inet6 := by simp

def dual (flags : CInt) (high low : Byte) : List Addrinfo :=
  [stream flags (some "www") addr4 (.inl rfl), stream flags none (addr6 high low) (.inr rfl)]

def www (flags : CInt) (high low : Byte) (_ : String) (_ : Option String) : Except String (List Addrinfo) :=
  .ok (dual flags high low)

theorem ports_right_iff_www :
    (main .little ntop (www 0x2 0 80) ("gethost" :: "www" :: Option.toList (some "http"))).stdout ≠
      expected ntop (dual 0x2 0 80) ∧
    (main .little ntop (www 0x2 80 80) ("gethost" :: "www" :: Option.toList (some "20560"))).stdout =
      expected ntop (dual 0x2 80 80) := by
  constructor
  · intro he
    have hright := (ports_right_iff rfl).mp he
    simp [dual, stream, addr4, addr6, AF_INET, AF_INET6] at hright
  · refine (ports_right_iff rfl).mpr ?_
    simp [dual, stream, addr4, addr6]

lemma plain_dual (flags : CInt) : ∀ aip ∈ dual flags 0 80, aip.Plain ntop := by
  have hhost : Bare "www".toList ∧ Bare "-".toList := by decide
  have haddress : Bare ((stream 0 none addr4 (.inl rfl)).address ntop).toList ∧
      Bare ((stream 0 none (addr6 0 80) (.inr rfl)).address ntop).toList := by decide +kernel
  simp only [dual, List.forall_mem_cons, List.not_mem_nil, false_implies, implies_true, and_true]
  exact ⟨⟨hhost.1, haddress.1⟩, ⟨hhost.2, haddress.2⟩⟩

theorem prints_alike_iff_www :
    main .little ntop (www 0x2 0 80) ("gethost" :: "www" :: Option.toList none) =
      main .little ntop (www 0x22 0 80) ("gethost" :: "www" :: Option.toList none) ∧
    main .little ntop (www 0x2 0 80) ("gethost" :: "www" :: Option.toList none) ≠
      main .little ntop (www 0x8 0 80) ("gethost" :: "www" :: Option.toList none) := by
  constructor
  · refine (prints_alike_iff rfl rfl (plain_dual _) (plain_dual _)).mpr (.cons ?_ (.cons ?_ .nil))
    all_goals exact { flags := by decide, flagless := by decide, family := rfl, socktype := rfl, protocol := rfl,
                      host := rfl, address := rfl, port := rfl }
  · intro he
    obtain ⟨halike, -⟩ := List.forall₂_cons.mp ((prints_alike_iff rfl rfl (plain_dual _) (plain_dual _)).mp he)
    exact absurd (halike.flags (0x2, "canon") (by decide)) (by decide)

end ApueCode.Gethost
