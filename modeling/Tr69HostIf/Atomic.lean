import Tr69HostIf.RFC.Atomic
import Tr69HostIf.BS.Atomic
import Tr69HostIf.BS.Precedence
import Tr69HostIf.RFC.Agreement

/-!
# Failed writes

`atomic_iff` : when a set of either store that fails leaves the caches, the journal and the files as they were, and
when a bootstrap set that succeeds is in the store and in the journal. Every open fails or succeeds on its own.
-/

namespace Tr69HostIf
open Store

/-- **When a failed set changes nothing, and a successful one is recorded.** -/
theorem atomic_iff (env : RFC.Env) (msg : MsgData) (s : RFC.XRFCStore) (w : BS.World) (o : BS.AllOpens)
    (bsMsg : MsgData) (b : BS.XBSStore) :
    -- the RFC store
    (RFC.FailsClean env msg s ↔ (RFC.Refused env msg s → RFC.Settled env msg s)) ∧
    -- the bootstrap store
    (BS.FailsClean w o bsMsg b ↔ (BS.Refused w o bsMsg b → BS.KeepsMaps w o bsMsg b)) ∧
      (BS.Records w o bsMsg b ↔ (¬ BS.Refused w o bsMsg b → BS.Noted w o bsMsg b)) :=
  ⟨RFC.failsClean_iff, BS.failsClean_iff, BS.records_iff⟩

/-- A WebPA set whose main file does not open stays in the local store; a set whose bootstrap file does not open takes a
mark off; a set whose journal does not open is in the store alone. -/
theorem half_done_sets :
    let webpa : MsgData := ⟨.ofLiteral "Device.A", .ofLiteral "1", .webpa⟩
    let rfc : MsgData := ⟨.ofLiteral "Device.A", .ofLiteral "1", .rfc⟩
    let again : MsgData := ⟨.ofLiteral "Device.A", .ofLiteral "2", .rfc⟩
    let clear : MsgData := ⟨.ofLiteral "Device.DeviceInfo.X_RDKCENTRAL-COM_RFC.Bootstrap.Control.ClearDB", .ofLiteral "1",
      .rfc⟩
    let w := BS.bootWorld []
    let b := BS.start w.ok none none
    let marked := (BS.overrideValue w.ok clear (BS.overrideValue w.ok rfc b).2).2
    ¬ RFC.FailsClean ⟨{ writeMain := false }, byKey⟩ webpa (RFC.start (RFC.Env.ok byKey) RFC.noFiles) ∧
      ¬ BS.FailsClean w { set := { writeStore := false } } again marked ∧
      ¬ BS.Records w { set := { writeJournal := false } } rfc b := by
  intro webpa rfc again clear w b marked
  refine ⟨fun h => ?_, fun h => ?_, fun h => ?_⟩
  · have hlocal := congrArg (Finmap.lookup "Device.A".toList) (h (by decide)).localDict
    exact absurd hlocal (by decide)
  · have hjournal := congrArg (Finmap.lookup "Device.A".toList) (h (by decide)).2
    exact absurd hjournal (by decide +kernel)
  · obtain ⟨r, hr, -⟩ := (h (by decide)).2
    have hnone : (BS.overrideAll w { set := { writeJournal := false } } rfc b).2.journal.dict.lookup
        rfc.paramName.chars = none := by decide
    rw [hnone] at hr
    cases hr

end Tr69HostIf
