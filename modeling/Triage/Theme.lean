/-! The colors chosen by a script, kept as it wrote them. -/

namespace Triage

structure Theme where
  background : String := "0"
  muted : String := "8"
  foreground : String := "7"
  highlight : String := "15"
  accent : String := "3"
  secondary : String := "4"
  tertiary : String := "6"
  accentBright : String := "11"
  secondaryBright : String := "12"
  tertiaryBright : String := "14"
  deriving DecidableEq, Repr, Inhabited

namespace Theme

structure Color where
  name : String
  get : Theme → String
  set : Theme → String → Theme

def colors : List Color :=
  [⟨"background", (·.background), fun t c => { t with background := c }⟩,
   ⟨"muted", (·.muted), fun t c => { t with muted := c }⟩,
   ⟨"foreground", (·.foreground), fun t c => { t with foreground := c }⟩,
   ⟨"highlight", (·.highlight), fun t c => { t with highlight := c }⟩,
   ⟨"accent", (·.accent), fun t c => { t with accent := c }⟩,
   ⟨"secondary", (·.secondary), fun t c => { t with secondary := c }⟩,
   ⟨"tertiary", (·.tertiary), fun t c => { t with tertiary := c }⟩,
   ⟨"accent_bright", (·.accentBright), fun t c => { t with accentBright := c }⟩,
   ⟨"secondary_bright", (·.secondaryBright), fun t c => { t with secondaryBright := c }⟩,
   ⟨"tertiary_bright", (·.tertiaryBright), fun t c => { t with tertiaryBright := c }⟩]

end Theme
end Triage
