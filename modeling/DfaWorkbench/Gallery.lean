import DfaWorkbench.Automaton.Basic

namespace DfaWorkbench

structure GrammarExample where
  start : String
  rules : String
  title : String
  deriving DecidableEq

namespace GrammarExample

def first : GrammarExample where
  start := "S"
  rules := "S → aS | bS | a | b | ε"
  title :=
    "All strings over \x7ba, b\x7d; the terminal-only rules make it non-deterministic"

def all : List GrammarExample :=
  [first,
    ⟨"S", "S → aA | bB\nA → aS | bC | b\nB → bS | aC | a\nC → aC | bC | ε",
      "Advanced four-state grammar"⟩,
    ⟨"S", "S -> aA | bS | ε\nA -> aA | bS", "Strings that are empty or end with 'b'"⟩,
    ⟨"S", "S -> aS | bA\nA -> aA | bA | ε", "Strings containing at least one 'b'"⟩,
    ⟨"S", "S -> aS | bA\nA -> aB | bA\nB -> aS | bA | ε", "Strings ending with 'ba'"⟩,
    ⟨"S", "S -> 0E | 1O | ε\nE -> 0E | 1O | ε\nO -> 0O | 1E",
      "Binary strings with an even number of 1's"⟩,
    ⟨"S", "S -> aS | bA | ε\nA -> aA | bS", "Strings with an even number of b's"⟩]

end GrammarExample

namespace Automaton

def samplePlace (x : Float) : List Json :=
  [.num (.float x), .num (.float 200)]

def sample : Automaton where
  states :=
    [⟨"q0", "q0", .start, samplePlace 100, by decide, by decide⟩,
      ⟨"q1", "q1", .normal, samplePlace 300, by decide, by decide⟩,
      ⟨"q2", "q2", .accept, samplePlace 500, by decide, by decide⟩]
  transitions :=
    [⟨"t0", "q0", "q1", 'a', by decide, by decide⟩,
      ⟨"t1", "q1", "q2", 'b', by decide, by decide⟩,
      ⟨"t2", "q0", "q0", 'b', by decide, by decide⟩,
      ⟨"t3", "q1", "q1", 'a', by decide, by decide⟩,
      ⟨"t4", "q2", "q0", 'a', by decide, by decide⟩,
      ⟨"t5", "q2", "q0", 'b', by decide, by decide⟩]
  alphabet := ["a", "b"]
  keys_nodup := by decide
  ids_atoms := by decide
  alphabet_nodup := by decide
  alphabet_atoms := by decide

end Automaton

end DfaWorkbench
