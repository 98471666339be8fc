import Patchbay.Command.Run
import Patchbay.Proofs.Closed
import Patchbay.Proofs.FirstWalk

/-!
# What has an expression can be played

The two walks over a graph check it apart from each other, and not in the same way. The one that
writes is the stricter of the two: it takes a node as often as it is held, and what it writes as a
number is one. So a node with an expression has samples, and a sample changes nothing of what the
expression depends on.

* `Store.tick_of_compile`: a node with an expression has a sample under the same limit;
* `Store.render_of_alike`: so it has as many as asked for, whatever the states of the nodes;
* `Command.compiled_cases`: a command that prints an expression does not fail at its samples;
* `Store.render_of_compile`: both, and that the expression stays the same.
-/

namespace Patchbay

namespace Store

variable {s s' t : Store} {limit : Nat} {root : NodeId} {text : String}

theorem tick_of_compile (h : ((compile limit root).exec s).1 = .ok text) :
    ∃ x, ((tick limit root).exec s).1 = .ok x := by
  obtain ⟨⟨hwithin, hwritable⟩, -⟩ := (compile_ok_iff (.refl s)).1 h
  exact tick_of_within hwritable.numeric hwithin

/-- A sample leaves a store from which the next one is taken. What they have in common is all that
the expression depends on. -/
theorem render_of_alike (h : ((compile limit root).exec s).1 = .ok text) (halike : Alike s t)
    (count : Nat) : ∃ samples t', (render limit root count).exec t = (.ok samples, t') ∧
      samples.length = count ∧ Alike s t' := by
  induction count generalizing t with
  | zero => exact ⟨[], t, rfl, rfl, halike⟩
  | succ count ih =>
    obtain ⟨x, hx⟩ := tick_of_compile ((compile_of_alike halike).2 h)
    have htick : (tick limit root).exec t = (.ok x, ((tick limit root).exec t).2) := Prod.ext hx rfl
    obtain ⟨samples, t', hexec, hlength, halike'⟩ := ih (halike.trans (alike_tick limit root t))
    refine ⟨x :: samples, t', ?_, congrArg Nat.succ hlength, halike'⟩
    rw [render, Task.exec_bind_ok htick, Task.exec_bind_ok hexec]
    rfl

end Store

/-! ## The command -/

namespace Command

/-- What goes wrong with a file from which no graph is rebuilt. -/
theorem rebuild_error {files : Files} {path : String} {failure : Failure}
    (h : readFile files path >>= rebuild path = .error failure) :
    failure.what ∈ ["Failed to read " ++ path, "Invalid snapshot in " ++ path,
      "Failed to rebuild graph", path ++ " does not describe a node"] := by
  cases hfile : files path with
  | error why =>
    rw [readFile, hfile] at h
    cases h
    exact .head _
  | ok text =>
    have hrebuild : rebuild path text = .error failure := by
      rw [readFile, hfile] at h
      exact h
    rw [rebuild_eq] at hrebuild
    split at hrebuild
    · cases hrebuild
      exact .tail _ (.head _)
    · split at hrebuild
      · cases hrebuild
        exact .tail _ (.tail _ (.head _))
      · split at hrebuild
        · cases hrebuild
        · cases hrebuild
          exact .tail _ (.tail _ (.tail _ (.head _)))

/-- No file has a name with which that reads like samples that fail. -/
theorem evaluate_notMem (path : String) :
    "Failed to evaluate graph" ∉ ["Failed to read " ++ path, "Invalid snapshot in " ++ path,
      "Failed to rebuild graph", path ++ " does not describe a node"] := by
  have hread : "Failed to evaluate graph" ≠ "Failed to read " ++ path := by
    intro heq
    have hletter := congrArg (·.toList[10]?) heq
    simp only [String.toList_append] at hletter
    rw [List.getElem?_append_left (by decide)] at hletter
    exact absurd hletter (by decide)
  have hinvalid : "Failed to evaluate graph" ≠ "Invalid snapshot in " ++ path := by
    intro heq
    have hletter : ("Invalid snapshot in " ++ path).toList.head? = some 'I' :=
      head?_toList_append rfl
    rw [← heq] at hletter
    exact absurd hletter (by decide)
  have hnode : "Failed to evaluate graph" ≠ path ++ " does not describe a node" := by
    intro heq
    have hletter : (path ++ " does not describe a node").toList.getLast? = some 'e' :=
      getLast?_toList_append rfl
    rw [← heq] at hletter
    exact absurd hletter (by decide)
  simp only [List.mem_cons, List.not_mem_nil, or_false, not_or]
  exact ⟨hread, hinvalid, by decide, hnode⟩

/-- A command that prints an expression prints all samples too. -/
theorem compiled_cases (files : Files) (path : String) (ticks : Nat) :
    (∃ printed, compiled files path ticks = (printed, .ok ()) ∧ printed.length = ticks + 1) ∨
    ∃ failure, compiled files path ticks = ([], .error failure) ∧
      failure.what ≠ "Failed to evaluate graph" := by
  rcases hgraph : readFile files path >>= rebuild path with failure | ⟨receiver, root⟩
  · refine .inr ⟨failure, by rw [compiled, hgraph], fun heq => ?_⟩
    exact evaluate_notMem path (heq ▸ rebuild_error hgraph)
  rcases hcompile : (Store.compile Store.defaultDepth root.id).exec receiver.store with
    ⟨fault | expression, store⟩
  · refine .inr ⟨.of "Failed to compile graph" fault, ?_, ?_⟩
    · simp only [compiled, hgraph, hcompile]
    · show "Failed to compile graph" ≠ "Failed to evaluate graph"
      decide
  · -- The samples are taken of the store in which the expression has been kept.
    have halike := Store.alike_compile Store.defaultDepth root.id receiver.store
    rw [hcompile] at halike
    obtain ⟨samples, store', hrender, hlength, -⟩ :=
      Store.render_of_alike (congrArg Prod.fst hcompile) halike ticks
    have hlines : sampleLines root.id ticks store = .ok (samples.map Double.toPlain) := by
      rw [sampleLines, hrender]
      rfl
    refine .inl ⟨expression :: samples.map Double.toPlain, ?_, ?_⟩
    · simp only [compiled, hgraph, hcompile, hlines]
    · rw [List.length_cons, List.length_map, hlength]

end Command

/-- **What has an expression can be played.** If a node has an expression under a limit, then under
that limit it has as many samples as are asked for, before the expression was written and
afterwards, and after them it has the same expression. So a command to print an expression and
samples prints all of them, or it fails before it prints anything, and not at the samples. -/
theorem Store.render_of_compile :
    (∀ {s s' : Store} {limit : Nat} {root : NodeId} {text : String},
      (compile limit root).exec s = (.ok text, s') → ∀ t ∈ [s, s'], ∀ count : Nat,
        ∃ samples t', (render limit root count).exec t = (.ok samples, t') ∧
          samples.length = count ∧ ((compile limit root).exec t').1 = .ok text) ∧
    ∀ (files : Command.Files) (path : String) (ticks : Nat),
      match Command.compiled files path ticks with
      | (printed, .ok ()) => printed.length = ticks + 1
      | (printed, .error failure) => printed = [] ∧ failure.what ≠ "Failed to evaluate graph" := by
  constructor
  · intro s s' limit root text hcompile t ht count
    have htext := congrArg Prod.fst hcompile
    have halike : Alike s t := by
      rcases List.mem_pair.1 ht with rfl | rfl
      · exact .refl _
      · have hwritten := alike_compile limit root s
        rw [hcompile] at hwritten
        exact hwritten
    obtain ⟨samples, t', hrender, hlength, halike'⟩ := render_of_alike htext halike count
    exact ⟨samples, t', hrender, hlength, (compile_of_alike halike').2 htext⟩
  · intro files path ticks
    rcases Command.compiled_cases files path ticks with
      ⟨printed, heq, hlength⟩ | ⟨failure, heq, hwhat⟩
    · rw [heq]
      exact hlength
    · rw [heq]
      exact ⟨rfl, hwhat⟩

/-- A sequence of two steps, and the sum of it and a number. -/
def Store.stepped : Store :=
  (((build (Node.sequence [.scalar 1.0, .scalar 2.0] (.scalar 1.0))).exec empty).2.add
    (.fresh (.chain .add) (.positional [.node ⟨1, true⟩, .scalar 10.0]))).2

theorem Store.render_of_stepped : ∃ samples t',
    (render 2 2 3).exec stepped = (.ok samples, t') ∧ samples.length = 3 ∧
      ((compile 2 2).exec t').1 = .ok "( sequence(1, 1, 2) + 10 )" := by
  have hcompile : ((compile 2 2).exec stepped).1 = .ok "( sequence(1, 1, 2) + 10 )" := by
    decide +kernel
  have hexec : (compile 2 2).exec stepped =
      (.ok "( sequence(1, 1, 2) + 10 )", ((compile 2 2).exec stepped).2) := Prod.ext hcompile rfl
  exact render_of_compile.1 hexec stepped List.mem_cons_self 3

end Patchbay
