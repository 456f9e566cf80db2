namespace AnvilRun

/-- The stream a log chunk was read from. -/
inductive LogStream where
  | stdout
  | stderr
  deriving DecidableEq, Repr

end AnvilRun
