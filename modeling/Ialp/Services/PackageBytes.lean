import Ialp.Services.Attribution
import Ialp.Services.ImporterStore

/-!
The bytes of a package under its identity. The package hash covers what the bytes decode to, and the
decoder ignores what follows, so that one identity can come with different bytes: they differ
exactly in what follows.
-/

namespace Ialp.Services

open Scale Hashing

section Bytes

variable {blake2 : Bytes → Hash32} {codec : PackageCodec}

def envelopeIdentity (envelope : RelayPackageEnvelopeV1) : PackageIdentity where
  sourceDomain := envelope.sourceDomain
  targetDomain := envelope.targetDomain
  epochId := envelope.epochId
  packageHash := envelope.packageHash

/-- The package bytes are the encoding of the package they decode to, with nothing after it. -/
def CanonicalBytes (codec : PackageCodec) (envelope : RelayPackageEnvelopeV1)
    (package : CertifiedSummaryPackage) : Prop :=
  envelope.packageBytes = codec.package.encode package

theorem package_of_accepted {bytes : Bytes} {envelope : RelayPackageEnvelopeV1}
    {package : CertifiedSummaryPackage}
    (accepted : decodeAndValidateEnvelope blake2 codec bytes = .ok (envelope, package)) :
    codec.package.decode envelope.packageBytes = .ok package ∧
      package.computePackageHash blake2 codec = package.packageHash ∧
      package.packageHash = envelope.packageHash := by
  simp only [decodeAndValidateEnvelope, bind_eq_ok, ensure_eq_ok] at accepted
  obtain ⟨_, _, _, decoded, _, hashed, _, named, _, _, _, _, _, _, _, _, _, _, _, _, returned⟩ :=
    accepted
  cases returned
  exact ⟨decodeAs_eq_ok.mp decoded, hashed, named⟩

theorem accepted_of_padded {envelope : RelayPackageEnvelopeV1} {package : CertifiedSummaryPackage}
    (ignores : codec.package.IgnoresRest) (canonical : CanonicalBytes codec envelope package)
    (accepted : decodeAndValidateEnvelope blake2 codec (codec.envelope.encode envelope) =
      .ok (envelope, package))
    (rest : Bytes) :
    let padded := { envelope with packageBytes := envelope.packageBytes ++ rest }
    decodeAndValidateEnvelope blake2 codec (codec.envelope.encode padded) =
      .ok (padded, package) := by
  have first : decodeAs codec.package "failed to decode certified summary package: "
      envelope.packageBytes =
      .ok package := by
    rw [canonical, decodeAs_encode]
  have second : decodeAs codec.package "failed to decode certified summary package: "
      (envelope.packageBytes ++ rest) = .ok package := by
    rw [canonical, decodeAs, ignores]
    rfl
  simp only [decodeAndValidateEnvelope, decodeAs_encode, ok_bind, first, bind_eq_ok, ensure_eq_ok]
    at accepted
  simp only [decodeAndValidateEnvelope, decodeAs_encode, ok_bind, second, bind_eq_ok, ensure_eq_ok]
  obtain ⟨_, hashed, _, named, _, domain, _, epoch, _, summary, scanned, derived, _, target, _,
      count, _⟩ := accepted
  exact ⟨(), hashed, (), named, (), domain, (), epoch, (), summary, scanned, derived, (),
    target, (), count, rfl⟩

/-- What the decoder leaves of the package bytes. -/
def trailingBytes (codec : PackageCodec) (envelope : RelayPackageEnvelopeV1)
    (package : CertifiedSummaryPackage) : Bytes :=
  envelope.packageBytes.drop (codec.package.encode package).length

theorem encode_append_trailingBytes {bytes : Bytes} {envelope : RelayPackageEnvelopeV1}
    {package : CertifiedSummaryPackage} (reads : codec.package.ReadsEncoding)
    (accepted : decodeAndValidateEnvelope blake2 codec bytes = .ok (envelope, package)) :
    codec.package.encode package ++ trailingBytes codec envelope package = envelope.packageBytes :=
  (List.prefix_append_drop (reads package _ (package_of_accepted accepted).1)).symm

/-- Equal identities of accepted envelopes come with equal package bytes exactly if the bytes after
the encoded packages are equal, or the two package hash inputs collide. -/
theorem package_bytes_determined (blake2 : Bytes → Hash32) (codec : PackageCodec)
    (injective : Function.Injective codec.hashInput) (reads : codec.package.ReadsEncoding)
    (bytes bytes' : Bytes) (envelope envelope' : RelayPackageEnvelopeV1)
    (package package' : CertifiedSummaryPackage)
    (accepted : decodeAndValidateEnvelope blake2 codec bytes = .ok (envelope, package))
    (accepted' : decodeAndValidateEnvelope blake2 codec bytes' = .ok (envelope', package'))
    (same : envelopeIdentity envelope = envelopeIdentity envelope') :
    (envelope.packageBytes = envelope'.packageBytes ↔
        trailingBytes codec envelope package = trailingBytes codec envelope' package') ∨
      Collides blake2 [codec.hashInput package.hashInput, codec.hashInput package'.hashInput] := by
  obtain ⟨-, hashed, named⟩ := package_of_accepted accepted
  obtain ⟨-, hashed', named'⟩ := package_of_accepted accepted'
  have hashes : package.packageHash = package'.packageHash :=
    named.trans ((congrArg PackageIdentity.packageHash same).trans named'.symm)
  have digests : blake2 (codec.hashInput package.hashInput) =
      blake2 (codec.hashInput package'.hashInput) :=
    hashed.trans (hashes.trans hashed'.symm)
  rcases eq_or_collides (List.mem_cons_self) (List.mem_cons_of_mem _ List.mem_cons_self)
    digests with inputs | collides
  · left
    have contents : package.toCertifiedSummaryPackageHashInput =
        package'.toCertifiedSummaryPackageHashInput :=
      injective inputs
    have packages : package = package' := by
      cases package
      cases package'
      cases contents
      cases hashes
      rfl
    rw [← encode_append_trailingBytes reads accepted, ← encode_append_trailingBytes reads accepted',
      packages]
    exact List.append_right_inj _
  · exact .inr collides

end Bytes

section Sample

noncomputable def sampleMarkedPackage : CertifiedSummaryPackage :=
  packageOf sampleHash markedCodec (sampleAckHeader .moon) sampleBundle (sampleAckItems .moon)

noncomputable def sampleMarkedEnvelope (now : UInt64) : RelayPackageEnvelopeV1 :=
  RelayPackageEnvelopeV1.create .moon .earth 3 sampleMarkedPackage.header.summaryHash
    sampleMarkedPackage.packageHash (markedCodec.package.encode sampleMarkedPackage) 1 now

theorem sampleMarkedEnvelope_accepted (now : UInt64) :
    decodeAndValidateEnvelope sampleHash markedCodec
      (markedCodec.envelope.encode (sampleMarkedEnvelope now)) =
      .ok (sampleMarkedEnvelope now, sampleMarkedPackage) :=
  decodeAndValidateEnvelope_accepts (packageOf_inclusionProofs _ _ _ _ _)
    (sampleAckItems_nonempty .moon) (sampleAckItems_checked markedCodec .moon) (by decide) rfl now

noncomputable def samplePaddedEnvelope (now : UInt64) (rest : Bytes) : RelayPackageEnvelopeV1 :=
  { sampleMarkedEnvelope now with packageBytes := (sampleMarkedEnvelope now).packageBytes ++ rest }

theorem samplePaddedEnvelope_accepted (now : UInt64) (rest : Bytes) :
    decodeAndValidateEnvelope sampleHash markedCodec
        (markedCodec.envelope.encode (samplePaddedEnvelope now rest)) =
      .ok (samplePaddedEnvelope now rest, sampleMarkedPackage) :=
  have canonical : CanonicalBytes markedCodec (sampleMarkedEnvelope now) sampleMarkedPackage := rfl
  accepted_of_padded (Codec.ofCountableMarked_ignoresRest _) canonical
    (sampleMarkedEnvelope_accepted now) rest

theorem samplePaddedEnvelope_trailingBytes (now : UInt64) (rest : Bytes) :
    trailingBytes markedCodec (samplePaddedEnvelope now rest) sampleMarkedPackage = rest :=
  List.drop_left

theorem package_bytes_determined_sample :
    samplePaddedEnvelope 1 [7] ≠ samplePaddedEnvelope 2 [7] ∧
      trailingBytes markedCodec (samplePaddedEnvelope 1 [7]) sampleMarkedPackage = [7] ∧
      trailingBytes markedCodec (samplePaddedEnvelope 2 [7]) sampleMarkedPackage = [7] ∧
      (((samplePaddedEnvelope 1 [7]).packageBytes = (samplePaddedEnvelope 2 [7]).packageBytes ↔
          trailingBytes markedCodec (samplePaddedEnvelope 1 [7]) sampleMarkedPackage =
            trailingBytes markedCodec (samplePaddedEnvelope 2 [7]) sampleMarkedPackage) ∨
        Collides sampleHash [markedCodec.hashInput sampleMarkedPackage.hashInput,
          markedCodec.hashInput sampleMarkedPackage.hashInput]) := by
  refine ⟨?_, samplePaddedEnvelope_trailingBytes 1 [7], samplePaddedEnvelope_trailingBytes 2 [7],
    ?_⟩
  · intro same
    exact absurd (congrArg RelayPackageEnvelopeV1.relaySubmittedAtUnixMs same) (by decide)
  · exact package_bytes_determined sampleHash markedCodec (Codec.encode_injective _)
      (Codec.ofCountableMarked_readsEncoding _) _ _ _ _ _ _ (samplePaddedEnvelope_accepted 1 [7])
      (samplePaddedEnvelope_accepted 2 [7]) rfl

/-- An envelope with a byte after the package is accepted too, under the same identity. -/
theorem package_bytes_ambiguous :
    markedCodec.package.IgnoresRest ∧ markedCodec.envelope.IgnoresRest ∧
      ∃ bytes bytes' envelope envelope',
        decodeAndValidateEnvelope sampleHash markedCodec bytes =
          .ok (envelope, sampleMarkedPackage) ∧
        decodeAndValidateEnvelope sampleHash markedCodec bytes' =
          .ok (envelope', sampleMarkedPackage) ∧
        envelopeIdentity envelope = envelopeIdentity envelope' ∧ envelope.packageBytes ≠
          envelope'.packageBytes := by
  refine ⟨Codec.ofCountableMarked_ignoresRest _, Codec.ofCountableMarked_ignoresRest _, _, _,
    sampleMarkedEnvelope 1, samplePaddedEnvelope 1 [7], sampleMarkedEnvelope_accepted 1,
    samplePaddedEnvelope_accepted 1 [7], rfl, ?_⟩
  intro same
  have lengths := congrArg List.length same
  simp [samplePaddedEnvelope] at lengths

end Sample

end Ialp.Services
