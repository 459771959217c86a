import StreamScript.Token

/-! # Listings of tokens

A listing has one entry for each token, on a line of its own: its text as it stands, the name of
its kind and its line. -/

namespace StreamScript

/-- The line of a listing for one token, with its line end. -/
def Token.entry (t : Token) : String :=
  s!"Token: {t.text} Type: {t.kind.name} Line: {t.line}\n"

/-- The entries of all tokens, one after the other. -/
def listing (tokens : List Token) : String := String.join (tokens.map Token.entry)

@[simp] theorem listing_nil : listing [] = "" := by simp [listing]

@[simp] theorem listing_cons (t : Token) (ts : List Token) :
    listing (t :: ts) = t.entry ++ listing ts := by simp [listing]

end StreamScript
