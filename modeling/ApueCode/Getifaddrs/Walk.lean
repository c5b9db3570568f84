import ApueCode.Getifaddrs.Model

/-! Every interface is visited as long as none is without an address. -/

namespace ApueCode.Getifaddrs

open Posix

variable {inet_ntop : SaFamily → List Byte → ℕ → Option String}
variable {e : Ifaddrs} {l pre post : List Ifaddrs} {sa : Sockaddr}

structure Succeeds (inet_ntop : SaFamily → List Byte → ℕ → Option String) : Prop where
  inet : ∀ addr, addr.length = 4 → ∃ p, inet_ntop AF_INET addr INET_ADDRSTRLEN = some p
  inet6 : ∀ addr, addr.length = 16 → ∃ p, inet_ntop AF_INET6 addr INET6_ADDRSTRLEN = some p

def Ifaddrs.address (inet_ntop : SaFamily → List Byte → ℕ → Option String) (e : Ifaddrs) : Option String :=
  e.ifa_addr.bind fun sa =>
    if sa.sa_family = AF_INET then inet_ntop AF_INET sa.sin_addr INET_ADDRSTRLEN
    else if sa.sa_family = AF_INET6 then inet_ntop AF_INET6 sa.sin6_addr INET6_ADDRSTRLEN
    else none

def lines (inet_ntop : SaFamily → List Byte → ℕ → Option String) (l : List Ifaddrs) : List String :=
  l.filterMap fun e => (e.address inet_ntop).map fun p => s!"{e.ifa_name}: {p}\n"

structure Lists (inet_ntop : SaFamily → List Byte → ℕ → Option String) (l : List Ifaddrs) (o : Outcome) :
    Prop where
  visited : o.visited = l
  safe : o.final ≠ .segv
  stderr : o.stderr = lines inet_ntop l
  final : o.final = .exited 0

lemma walk_cons (h : Succeeds inet_ntop) (ha : e.ifa_addr = some sa) : walk inet_ntop (e :: l) =
    ⟨e :: (walk inet_ntop l).visited, lines inet_ntop [e] ++ (walk inet_ntop l).stderr,
      (walk inet_ntop l).final⟩ := by
  by_cases h4 : sa.sa_family = AF_INET
  · obtain ⟨p, hp⟩ := h.inet sa.sin_addr (Sockaddr.length_sin_addr h4)
    simp [walk, ha, h4, hp, report, lines, Ifaddrs.address]
  · by_cases h6 : sa.sa_family = AF_INET6
    · have hne : AF_INET6 ≠ AF_INET := by decide
      obtain ⟨p, hp⟩ := h.inet6 sa.sin6_addr (Sockaddr.length_sin6_addr h6)
      simp [walk, ha, h6, hne, hp, report, lines, Ifaddrs.address]
    · simp [walk, ha, h4, h6, lines, Ifaddrs.address]

lemma walk_none (ha : e.ifa_addr = none) : walk inet_ntop (e :: l) = ⟨[e], [], .segv⟩ := by
  simp [walk, ha]

lemma lines_cons (e : Ifaddrs) (l : List Ifaddrs) :
    lines inet_ntop (e :: l) = lines inet_ntop [e] ++ lines inet_ntop l :=
  List.filterMap_append (l := [e])

lemma walk_append (h : Succeeds inet_ntop) (hp : ∀ e ∈ pre, e.ifa_addr ≠ none) :
    walk inet_ntop (pre ++ l) = ⟨pre ++ (walk inet_ntop l).visited,
      lines inet_ntop pre ++ (walk inet_ntop l).stderr, (walk inet_ntop l).final⟩ := by
  induction pre with
  | nil => rfl
  | cons e pre ih =>
    obtain ⟨sa, ha⟩ := Option.ne_none_iff_exists'.mp (hp e List.mem_cons_self)
    have hpre : ∀ e ∈ pre, e.ifa_addr ≠ none := fun e' he => hp e' (List.mem_cons_of_mem e he)
    rw [List.cons_append, walk_cons h ha, ih hpre, lines_cons e pre, List.append_assoc, List.cons_append]

theorem walk_segv (h : Succeeds inet_ntop) (hl : ∃ e ∈ l, e.ifa_addr = none) : ∃ pre e post,
    l = pre ++ e :: post ∧ walk inet_ntop l = ⟨pre ++ [e], lines inet_ntop pre, .segv⟩ := by
  have hfind : (l.find? fun e => e.ifa_addr.isNone).isSome := by
    rw [List.find?_isSome]
    simpa using hl
  obtain ⟨e, he⟩ := Option.isSome_iff_exists.mp hfind
  obtain ⟨hn, pre, post, rfl, hpre⟩ := List.find?_eq_some_iff_append.mp he
  have hpre' : ∀ e ∈ pre, e.ifa_addr ≠ none := by
    simpa [Option.isSome_iff_ne_none] using hpre
  refine ⟨pre, e, post, rfl, ?_⟩
  rw [walk_append h hpre', walk_none (by simpa using hn), List.append_nil]

/-- All internet addresses are listed, and nothing else, exactly if every entry has some address. -/
theorem lists_iff (h : Succeeds inet_ntop) :
    Lists inet_ntop l (main inet_ntop (some l)) ↔ ∀ e ∈ l, e.ifa_addr ≠ none := by
  constructor
  · rintro hlists e he hnone
    obtain ⟨pre, f, post, -, hsegv⟩ := walk_segv h ⟨e, he, hnone⟩
    exact hlists.safe (congrArg Outcome.final hsegv)
  · intro hl
    have hwalk := walk_append (l := []) h hl
    simp only [List.append_nil, walk] at hwalk
    exact ⟨congrArg Outcome.visited hwalk, by simp [main, hwalk], congrArg Outcome.stderr hwalk,
      congrArg Outcome.final hwalk⟩

def groups : List Byte → List String
  | a :: b :: rest => String.ofList (Nat.toDigits 16 (a.toNat * 256 + b.toNat)) :: groups rest
  | _ => []

def ntop (af : SaFamily) (addr : List Byte) (_ : ℕ) : Option String :=
  if af = AF_INET then some (".".intercalate (addr.map fun b => toString b.toNat))
  else if af = AF_INET6 then some (":".intercalate (groups addr))
  else none

lemma ntop_succeeds : Succeeds ntop where
  inet _ _ := ⟨_, rfl⟩
  inet6 _ _ := ⟨_, rfl⟩

def lo : Ifaddrs where
  ifa_name := "lo"
  ifa_addr := some ⟨AF_INET, [0, 0, 127, 0, 0, 1, 0, 0, 0, 0, 0, 0, 0, 0], by decide, by decide⟩

def packet : Ifaddrs where
  ifa_name := "eth0"
  ifa_addr := some ⟨17, [8, 6, 2, 0, 0, 0, 1, 0, 0, 6, 2, 0, 0, 0, 0, 1, 0, 0], by decide, by decide⟩

def eth0 : Ifaddrs where
  ifa_name := "eth0"
  ifa_addr := some ⟨AF_INET6, [0, 0, 0, 0, 0, 0, 0x20, 0x01, 0x0d, 0xb8, 0, 1, 0, 2, 0, 3, 0, 4, 0, 5, 0, 6, 0, 0, 0, 0],
    by decide, by decide⟩

def tunnel : Ifaddrs where
  ifa_name := "tun0"
  ifa_addr := none

theorem lists_internet : Lists ntop [lo, packet, eth0] (main ntop (some [lo, packet, eth0])) ∧
    lines ntop [lo, packet, eth0] = ["lo: 127.0.0.1\n", "eth0: 2001:db8:1:2:3:4:5:6\n"] := by
  refine ⟨(lists_iff ntop_succeeds).mpr ?_, by decide +kernel⟩
  simp [lo, packet, eth0]

theorem tunnel_segv : Succeeds ntop ∧
    main ntop (some [lo, tunnel, eth0]) = ⟨[lo, tunnel], ["lo: 127.0.0.1\n"], .segv⟩ ∧
    ¬ Lists ntop [lo, tunnel, eth0] (main ntop (some [lo, tunnel, eth0])) :=
  ⟨ntop_succeeds, rfl, fun h => h.safe rfl⟩

end ApueCode.Getifaddrs
