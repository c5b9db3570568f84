import ApueCode.Posix.CString

/-! `getifaddrs`: a line for each interface that has an internet address. `segv` is a read through a null pointer. -/

namespace ApueCode.Getifaddrs

open Posix

abbrev SaFamily := UInt16

def AF_INET : SaFamily := 2
def AF_INET6 : SaFamily := 10

def INET_ADDRSTRLEN : ℕ := 16
def INET6_ADDRSTRLEN : ℕ := 46

structure Sockaddr where
  sa_family : SaFamily
  sa_data : List Byte
  inet : sa_family = AF_INET → 6 ≤ sa_data.length
  inet6 : sa_family = AF_INET6 → 22 ≤ sa_data.length

namespace Sockaddr

variable {sa : Sockaddr}

def sin_addr (sa : Sockaddr) : List Byte := (sa.sa_data.drop 2).take 4

def sin6_addr (sa : Sockaddr) : List Byte := (sa.sa_data.drop 6).take 16

lemma length_sin_addr (h : sa.sa_family = AF_INET) : sa.sin_addr.length = 4 := by
  have hl := sa.inet h
  simp only [sin_addr, List.length_take, List.length_drop]
  omega

lemma length_sin6_addr (h : sa.sa_family = AF_INET6) : sa.sin6_addr.length = 16 := by
  have hl := sa.inet6 h
  simp only [sin6_addr, List.length_take, List.length_drop]
  omega

end Sockaddr

structure Ifaddrs where
  ifa_name : String
  ifa_addr : Option Sockaddr

inductive Final
  | exited (status : ℕ) | segv
  deriving DecidableEq

structure Outcome where
  visited : List Ifaddrs
  stderr : List String
  final : Final

variable (inet_ntop : SaFamily → List Byte → ℕ → Option String)

def report (ifap : Ifaddrs) (buf : Option String) (rest : Outcome) : Outcome :=
  match buf with
  | none => ⟨[ifap], ["inet_ntop error"], .exited 1⟩
  | some buf => ⟨ifap :: rest.visited, s!"{ifap.ifa_name}: {buf}\n" :: rest.stderr, rest.final⟩

def walk : List Ifaddrs → Outcome
  | [] => ⟨[], [], .exited 0⟩
  | ifap :: ifa_next =>
    match ifap.ifa_addr with
    | none => ⟨[ifap], [], .segv⟩
    | some sa =>
      if sa.sa_family = AF_INET then
        report ifap (inet_ntop AF_INET sa.sin_addr INET_ADDRSTRLEN) (walk ifa_next)
      else if sa.sa_family = AF_INET6 then
        report ifap (inet_ntop AF_INET6 sa.sin6_addr INET6_ADDRSTRLEN) (walk ifa_next)
      else { walk ifa_next with visited := ifap :: (walk ifa_next).visited }

def main : Option (List Ifaddrs) → Outcome
  | none => ⟨[], ["getifaddrs error"], .exited 1⟩
  | some ifap => walk inet_ntop ifap

end ApueCode.Getifaddrs
