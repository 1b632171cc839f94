import DenyFS.Verified.TwoRuns

/-! # The outer view does not depend on the hidden region

Whoever opens the container with the outer password and without protection sees the outer
header and the outer range.  Two containers that agree there cannot be told apart by any
sequence of sessions, whatever stands behind the outer volume. -/

namespace DenyFS

open Packed BlockProgram

/-- An outer header that authenticates with a valid range decides the mount. -/
theorem mountFor_outer {crypto : Crypto} {container : Container} {password : List UInt8}
    {payload : HeaderPayload}
    (header : authenticate crypto container.outerHeader password = some payload)
    (range : validVolumeRange 4096 payload.volumeSize container.hiddenHeaderOffset = true)
    (hiddenPassword : Option (List UInt8)) :
    container.select crypto password = some (mountOf payload 4096 false) ∧
      container.mountFor crypto password hiddenPassword false =
        some (mountOf payload 4096 false) := by
  have selected : container.select crypto password = some (mountOf payload 4096 false) := by
    unfold Container.select selectVolume
    rw [header, Option.filter_some, if_pos range]
  refine ⟨selected, ?_⟩
  unfold Container.mountFor
  rw [selected]
  rfl

theorem runSession_unopenable {crypto : Crypto} (session : Session) {disk : Disk}
    (unsized : ¬disk.container.WellSized) : runSession crypto session disk = (none, disk) := by
  have short : disk.container.size < 36864 ∨ disk.container.size % 4096 ≠ 0 := by
    by_contra both
    exact unsized ⟨by omega, by omega⟩
  unfold runSession
  rw [volOpen_eq, if_pos short]

end DenyFS
