import ApueCode.Transition.Machine
import Mathlib.Data.Prod.Lex

/-! `nice_influence`: parent and child count iterations until a deadline, each in a loop of its own. -/

namespace ApueCode.NiceInfluence

open Transition

structure Timeval where
  tv_sec : ℤ
  tv_usec : ℤ
  deriving DecidableEq

def Timeval.time (tv : Timeval) : ℤ ×ₗ ℤ := toLex (tv.tv_sec, tv.tv_usec)

def Timeval.Valid (tv : Timeval) : Prop := 0 ≤ tv.tv_usec ∧ tv.tv_usec < 1000000

def EXIT_FAILURE : ℕ := 1

inductive Pc
  | count | checktime | exited (status : ℕ)
  deriving DecidableEq

structure State where
  pc : Pc
  count : BitVec 64
  stdout : List String
  stderr : List String

inductive Action
  | count | gettimeofday (tv : Timeval)
  deriving DecidableEq

def countLine (str : String) (count : ℕ) : String := s!"{str} count = {count}\n"

def Timeval.reached (deadline tv : Timeval) : Bool :=
  tv.tv_sec ≥ deadline.tv_sec && tv.tv_usec ≥ deadline.tv_usec

def checktime (deadline : Timeval) (str : String) (s : State) (tv : Timeval) : State :=
  if deadline.reached tv then
    { s with stdout := s.stdout ++ [countLine str s.count.toNat], pc := .exited 0 }
  else { s with pc := .count }

def countUp (str : String) (s : State) : State :=
  let count := s.count + 1
  if count = 0 then
    { s with count := count, stderr := s.stderr ++ [s!"{str} count wrap\n"], pc := .exited EXIT_FAILURE }
  else { s with count := count, pc := .checktime }

def step (deadline : Timeval) (str : String) (s : State) (a : Action) : Option State :=
  match s.pc, a with
  | .count, .count => some (countUp str s)
  | .checktime, .gettimeofday tv => some (checktime deadline str s tv)
  | _, _ => none

def start : State where
  pc := .count
  count := 0
  stdout := []
  stderr := []

def machine (deadline : Timeval) (str : String) : Machine State Action where
  init s := s = start
  step := step deadline str

end ApueCode.NiceInfluence
