import ContainerInit.Cron.Expression

/-! # Schedules

A schedule is a list of cron expressions. An empty one stands for the start of the system. -/

namespace ContainerInit.Cron

structure Schedule where
  expressions : List Expression
deriving DecidableEq, Repr

namespace Schedule

/-- Reads every expression; the first that cannot be read is reported. -/
def parse (texts : List String) : Except ParseError Schedule := do
  return ⟨← texts.mapM Expression.parse⟩

/-- Whether the schedule calls for a start of the system's own start. -/
def onBoot (s : Schedule) : Bool := s.expressions.isEmpty || s.expressions.any (·.reboot)

/-- The expressions that name instants. -/
def timed (s : Schedule) : List Expression := s.expressions.filter (!·.reboot)

def hasTimed (s : Schedule) : Bool := !s.timed.isEmpty

/-- Whether one of the expressions matches the instant. -/
def isDue (s : Schedule) (t : Calendar.Instant) : Bool := s.timed.any (·.Matches t)

end Schedule

end ContainerInit.Cron
