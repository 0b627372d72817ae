import VisualNovel.Proofs.Life.Failing
import VisualNovel.Proofs.Life.Restore

/-!
# Stored sessions that are refused

A stored session is either taken up or refused. What is found out too late for that is not called a
failure to restore. A host whose session cannot be restored therefore has lost nothing, although
declarations may have been read in the meantime.

## Main results

* `Host.restore_refused`: if a stored session is refused, nothing but remarks has been made.
-/

namespace VisualNovel

/-- A failure to restore is a matter of dialogue. -/
theorem Failure.isDialogue_of_isRestore {f : Failure} (h : f.isRestore) : f.isDialogue := by
  cases f <;> first | rfl | cases h

/-- Where declarations leave the variables as they are, nothing but remarks has been made. -/
theorem Stage.Declared.eq_of_vars {σ : Type} {st st' : Stage σ}
    (h : st.Declared st' st.session.vars) :
    ∃ remarks, st' = { st with remarks := st.remarks ++ remarks } := by
  obtain ⟨remarks, rfl⟩ := h
  exact ⟨remarks, rfl⟩

namespace Act

variable {σ : Type} {st : Stage σ} {hear : Listener σ}

/-- If a stored session is refused, nothing but remarks has been made, provided that those who
listen do not fail in ways that are matters of dialogue. -/
theorem restore_ends_of_failsElsewhere (hhear : ∀ e, FailsElsewhere (hear e)) (stored : String) :
    Ends (restore hear stored) st (fun _ _ => True) fun f st' =>
      f.isRestore → ∃ remarks, st' = { st with remarks := st.remarks ++ remarks } := by
  -- what is no matter of dialogue does not count as a refusal
  have helsewhere {f : Failure} (hf : f.isDialogue = false) (hrestore : f.isRestore) : False := by
    rw [Failure.isDialogue_of_isRestore hrestore] at hf
    cases hf
  refine restore_ends_of_load ?_ ?_ ?_
  · exact fun f st' _ _ h' _ => h'.eq_of_vars
  · exact fun t f vs st' _ _ _ hf _ hrestore => (helsewhere hf hrestore).elim
  · intro t ns vs st₁ _ _ _ _ _
    have hfails := failsElsewhere_resumeAt hhear t ns
    unfold Ends
    split
    · trivial
    · next f st' hresult => exact fun hrestore => (helsewhere (hfails _ _ _ hresult) hrestore).elim

end Act

namespace Host

/-- If a stored session is refused, the stage of the host is what it was before: the session with
its variables, the files, the host with its bus, and what has been asked of helpers and told on the
bus. Only remarks may have been added. -/
theorem restore_refused {depth : Nat} {stored : String} {st st' : Stage Host} {f : Failure}
    (h : Act.restore (publish depth) stored st = .error f st') (hf : f.isRestore) :
    ∃ remarks, st' = { st with remarks := st.remarks ++ remarks } :=
  (Act.restore_ends_of_failsElsewhere (failsElsewhere_publish depth) stored).of_error h hf

/-- A stage with a script in which a variable is declared. -/
private def kiosk : Stage Host where
  setup := ⟨⟨.working, ["dialogue"]⟩, [], ⟨2024, 1, 1, 0, 0⟩, 100⟩
  files := ⟨[(["dialogue"], .folder), (["dialogue", "a.dlg"],
    .file "var coins = 3\n#Node: main\nHere.\n#EndNode\n".toUTF8)]⟩
  session := { vars := .ofList [("coins", .int 1)] }
  notices := []
  remarks := []
  host := { blueprint := ⟨{}, .empty, none, []⟩ }

/-- A stored session in which the node on the stack waits for one that is not there. -/
private def astray : String :=
  "\x7b\"node_stack\":[\x7b\"node_name\":\"main\"\x7d,\x7b\"node_name\":\"gone\"\x7d]\x7d"

/-- A stored session is refused after a declaration has been read that would have changed a
variable, and nothing is lost. -/
theorem restore_refused_kiosk : ∃ f st', Act.restore (publish 1) astray kiosk = .error f st' ∧
    f.isRestore ∧
    (∃ t, Traversal.ofText astray = .valid t ∧
      (kiosk.shelf.load kiosk.session.vars t.frames).2 ≠ kiosk.session.vars) ∧
    ∃ remarks, st' = { kiosk with remarks := kiosk.remarks ++ remarks } := by
  have hrefused : (match Act.restore (publish 1) astray kiosk with
      | .error f _ => f.isRestore
      | .ok _ _ => false) = true := by decide +kernel
  have hdeclared : (match Traversal.ofText astray with
      | .valid t => decide ((kiosk.shelf.load kiosk.session.vars t.frames).2 ≠ kiosk.session.vars)
      | .invalid _ => false) = true := by decide +kernel
  cases hresult : Act.restore (publish 1) astray kiosk with
  | ok u st' => simp [hresult] at hrefused
  | error f st' =>
    rw [hresult] at hrefused
    cases ht : Traversal.ofText astray with
    | invalid ps => simp [ht] at hdeclared
    | valid t =>
      simp only [ht, decide_eq_true_eq] at hdeclared
      exact ⟨f, st', rfl, hrefused, ⟨t, rfl, hdeclared⟩, restore_refused hresult hrefused⟩

end Host

end VisualNovel
