import TableFormula.TokenSource

/-! The tokens of a text that was read beforehand. Looking at them changes nothing. -/

namespace TableFormula

/-- The tokens of a text up to its end, or up to the first fault. -/
structure TokenStream where
  tokens : List Token
  fault : Option LexFault := none
  deriving DecidableEq

namespace TokenStream

/-- The tokens of a text of which `position` bytes were read already. -/
def ofChars (position : Nat) (cs : List Char) : TokenStream :=
  let blanks := cs.takeWhile Text.isBlank
  let start := position + Text.byteSize blanks
  match _ : Token.read start (cs.dropWhile Text.isBlank) with
  | .error fault => { tokens := [], fault := some fault }
  | .ok (token, rest) =>
    if _ : token = .endOfInput then { tokens := [] }
    else
      let later := ofChars (start + Text.byteSize token.spelling) rest
      { later with tokens := token :: later.tokens }
termination_by cs.length
decreasing_by
  have := Token.length_lt_of_read ‹_› ‹_›
  have := (List.dropWhile_suffix Text.isBlank (l := cs)).length_le
  omega

def ofText (text : String) : TokenStream := ofChars 0 text.toList

def look (stream : TokenStream) : Except LexFault (Lookahead TokenStream) :=
  match stream.tokens with
  | token :: tokens => .ok { token, held := stream, rest := { stream with tokens } }
  | [] =>
    match stream.fault with
    | none => .ok { token := .endOfInput, held := stream, rest := stream }
    | some fault => .error fault

theorem held_of_look {stream : TokenStream} {ahead : Lookahead TokenStream}
    (h : stream.look = .ok ahead) : ahead.held = stream := by
  unfold look at h
  repeat' split at h
  all_goals cases h
  all_goals rfl

theorem length_of_look {stream : TokenStream} {ahead : Lookahead TokenStream}
    (h : stream.look = .ok ahead) (more : ahead.token ≠ .endOfInput) :
    ahead.rest.tokens.length < stream.tokens.length := by
  unfold look at h
  split at h
  · rename_i token tokens found
    cases h
    simp [found]
  · split at h
    · cases h
      exact absurd rfl more
    · cases h

instance : TokenSource TokenStream where
  look := look
  left stream := stream.tokens.length
  look_held h := (held_of_look h).symm ▸ h
  left_held h := Nat.le_of_eq (congrArg (·.tokens.length) (held_of_look h))
  left_rest h more := length_of_look h more

end TokenStream

end TableFormula
