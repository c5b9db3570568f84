import ApueCode.Getifaddrs.Model
import ApueCode.Posix.ByteOrder
import ApueCode.Posix.Printf

/-! `gethost`: what `getaddrinfo` answers, on two lines for each address. -/

namespace ApueCode.Gethost

open Posix Getifaddrs

abbrev CInt := BitVec 32

structure Addrinfo where
  ai_flags : CInt
  ai_family : ℤ
  ai_socktype : ℤ
  ai_protocol : ℤ
  ai_canonname : Option String
  ai_addr : Sockaddr
  internet : ai_addr.sa_family = AF_INET ∨ ai_addr.sa_family = AF_INET6
  family : ai_family = ai_addr.sa_family.toNat

def switch (names : List (ℤ × String)) (default : ℤ → List Char) (n : ℤ) : List Char :=
  match names.lookup n with
  | some name => name.toList
  | none => default n

def familyNames : List (ℤ × String) :=
  [(AF_INET.toNat, "inet"), (AF_INET6.toNat, "inet6"), (1, "unix"), (0, "unspecified")]

def print_family (aip : Addrinfo) : List Char :=
  " family: ".toList ++ switch familyNames (fun _ => "unknown".toList) aip.ai_family

def typeNames : List (ℤ × String) := [(1, "stream"), (2, "datagram"), (5, "seqpacket"), (3, "raw")]

def print_type (aip : Addrinfo) : List Char :=
  " type: ".toList ++ switch typeNames (fun n => "unknown (".toList ++ (signedDecimal n ++ ")".toList)) aip.ai_socktype

def protocolNames : List (ℤ × String) := [(0, "default"), (6, "TCP"), (17, "UDP"), (132, "SCTP"), (255, "raw")]

def print_protocol (aip : Addrinfo) : List Char :=
  " protocol: ".toList ++
    switch protocolNames (fun n => "unkonwn (".toList ++ (signedDecimal n ++ ")".toList)) aip.ai_protocol

-- AI_PASSIVE, AI_CANONNAME, AI_NUMERICHOST, AI_NUMERICSERV, AI_V4MAPPED and AI_ALL
def flagNames : List (CInt × String) :=
  [(0x1, "passive"), (0x2, "canon"), (0x4, "numhost"), (0x400, "numserv"), (0x8, "v4mapped"), (0x10, "all")]

def shownFlags (flags : CInt) : List (CInt × String) := flagNames.filter fun f => flags &&& f.1 ≠ 0

def print_flags (aip : Addrinfo) : List Char :=
  "flags:".toList ++
    if aip.ai_flags = 0 then " 0".toList else (shownFlags aip.ai_flags).flatMap fun f => ' ' :: f.2.toList

structure Outcome where
  stdout : List Char
  stderr : List String
  status : ℕ
  deriving DecidableEq

section

variable (order : ByteOrder) (inet_ntop : SaFamily → List Byte → ℕ → Option String)

def Addrinfo.host (aip : Addrinfo) : String := aip.ai_canonname.getD "-"

def Addrinfo.address (aip : Addrinfo) : String :=
  (if aip.ai_family = AF_INET.toNat then inet_ntop AF_INET aip.ai_addr.sin_addr INET_ADDRSTRLEN
    else inet_ntop AF_INET6 aip.ai_addr.sin6_addr INET6_ADDRSTRLEN).getD "unknown"

def Addrinfo.port (aip : Addrinfo) : BitVec 16 :=
  if aip.ai_family = AF_INET.toNat then order.ntohs (order.uint16 aip.ai_addr.sa_data)
  else order.uint16 aip.ai_addr.sa_data

def heading (aip : Addrinfo) : List Char :=
  print_flags aip ++ (print_family aip ++ (print_type aip ++ (print_protocol aip ++
    ("\n\thost: ".toList ++ (aip.host.toList ++ (" address: ".toList ++ ((aip.address inet_ntop).toList ++
      " port: ".toList)))))))

def entry (aip : Addrinfo) : List Char :=
  heading inet_ntop aip ++ (decimal (aip.port order).toNat ++ ['\n'])

variable (getaddrinfo : String → Option String → Except String (List Addrinfo))

def answer (host : String) (service : Option String) : Outcome :=
  match getaddrinfo host service with
  | .error err => ⟨[], [s!"getaddrinfo error: {err}\n"], 1⟩
  | .ok ailist => ⟨ailist.flatMap (entry order inet_ntop), [], 0⟩

def main (argv : List String) : Outcome :=
  match argv with
  | [_, host] => answer order inet_ntop getaddrinfo host none
  | [_, host, service] => answer order inet_ntop getaddrinfo host (some service)
  | _ =>
    let prog := argv.headD ""
    ⟨[], [s!"Usage: {prog} (<address> | <hostname>) [service]\n"], 1⟩

end

end ApueCode.Gethost
