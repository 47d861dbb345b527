import Phrasebook.Console.LineBuffer
import Phrasebook.Proofs.Reader.Extension
import Phrasebook.Proofs.Scan.Verdict

/-! # Errors that remain

No text can mend a closing character that closes nothing. Every other fatal error is a backslash at
the very end, which no line of a console ends in, so a console drops no text that further lines
could have completed.

* `LineBuffer.getLast?_extend`, `LineBuffer.eq_extend_of_ready` — the texts that a console reads.
* `fatal_permanent` — fatal endings of texts, and of what a console drops.
-/

namespace Phrasebook

theorem LineBuffer.getLast?_extend (held line : Text) :
    (extend held line).getLast? = some '\n' := by
  unfold extend terminated
  split
  · next hline => simp [List.getLast?_append, hline]
  · simp

theorem LineBuffer.eq_extend_of_ready [CallStack] {held line chunk : Text}
    (h : offer held line = .ready chunk) : chunk = extend held line := by
  unfold offer at h
  dsimp only at h
  split at h
  · cases h
  · split at h
    · cases h
    · cases h
      rfl

/-- An error of closing is reported for every longer text in the same way, with the same commands
    before it. A backslash that escapes nothing is reported only where it is the last character. So
    a text that a console drops as fatal, which ends in a line feed, would have stayed so whatever
    had been typed. -/
theorem fatal_permanent [CallStack] :
    (∀ text program error, parse text = .ok ⟨program, .fatal error⟩ →
      error.cause.isClosure = true →
      ∀ more, parse (text ++ more) = .ok ⟨program, .fatal error⟩)
    ∧ (∀ text program error, parse text = .ok ⟨program, .fatal error⟩ →
      error.cause = .escapeAtEndOfInput → text.getLast? = some '\\')
    ∧ ∀ held line chunk program error, LineBuffer.offer held line = .ready chunk →
      parse chunk = .ok ⟨program, .fatal error⟩ →
      chunk.getLast? = some '\n' ∧ error.cause.isClosure = true
        ∧ ∀ more, parse (chunk ++ more) = .ok ⟨program, .fatal error⟩ := by
  refine ⟨fun _ _ _ h hc => parse_append_of_isClosure h hc, ?_, ?_⟩
  · intro text program error h hcause
    obtain hclosure | ⟨-, hlast⟩ := cause_of_parse_fatal h
    · rw [hcause] at hclosure
      cases hclosure
    · exact hlast
  · intro held line chunk program error hready h
    have hline : chunk.getLast? = some '\n' := by
      rw [LineBuffer.eq_extend_of_ready hready]
      exact LineBuffer.getLast?_extend held line
    obtain hclosure | ⟨-, hlast⟩ := cause_of_parse_fatal h
    · exact ⟨hline, hclosure, parse_append_of_isClosure h hclosure⟩
    · -- The last character cannot be a line feed and a backslash.
      rw [hline] at hlast
      cases hlast

open StandardStack

theorem fatal_permanent_of_brace :
    let text : Text := ['a', '\n', '}']
    let brace : SyntaxError := ⟨.unexpectedStringClosure, ⟨2, 2, 0⟩, []⟩
    let escape : SyntaxError := ⟨.escapeAtEndOfInput, ⟨3, 1, 3⟩, []⟩
    let chunk : Text := ['(', '\n', '}', ')', '\n']
    (∃ program, parse text = .ok ⟨program, .fatal brace⟩ ∧ brace.cause.isClosure = true
        ∧ parse (text ++ ['{', '(']) = .ok ⟨program, .fatal brace⟩)
      ∧ (∃ program, parse ['a', ' ', '{', '\\'] = .ok ⟨program, .fatal escape⟩
        ∧ escape.cause = .escapeAtEndOfInput ∧ ['a', ' ', '{', '\\'].getLast? = some '\\')
      ∧ LineBuffer.offer ['(', '\n'] ['}', ')'] = .ready chunk
      ∧ ∃ program, parse chunk = .ok ⟨program, .fatal brace⟩
        ∧ parse (chunk ++ ['}', '\n']) = .ok ⟨program, .fatal brace⟩ := by
  intro text brace escape chunk
  obtain ⟨hclosure, hescape, hconsole⟩ := fatal_permanent
  obtain ⟨program, htext⟩ : ∃ program, parse text = .ok ⟨program, .fatal brace⟩ :=
    parse_of_ending (by decide +kernel)
  obtain ⟨quoting, hquoting⟩ :
      ∃ program, parse ['a', ' ', '{', '\\'] = .ok ⟨program, .fatal escape⟩ :=
    parse_of_ending (by decide +kernel)
  obtain ⟨dropped, hdropped⟩ : ∃ program, parse chunk = .ok ⟨program, .fatal brace⟩ :=
    parse_of_ending (by decide +kernel)
  have hready : LineBuffer.offer ['(', '\n'] ['}', ')'] = .ready chunk := by decide +kernel
  exact ⟨⟨program, htext, rfl, hclosure _ _ _ htext rfl _⟩,
    ⟨quoting, hquoting, rfl, hescape _ _ _ hquoting rfl⟩, hready,
    dropped, hdropped, (hconsole _ _ _ _ _ hready hdropped).2.2 _⟩

end Phrasebook
