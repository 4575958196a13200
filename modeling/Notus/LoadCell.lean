import Notus.Errors
import Notus.Zephyr.Adc

/-! The load cell: one converter channel, and the buffer its samples are read into. -/

namespace Notus

/-- The members of the class; `gramsOf` is the multiplication by the grams per millivolt. -/
structure LoadCell (Weight : Type*) where
  adcSpec : AdcDtSpec
  gramsOf : Int → Weight
  /-- An unsigned word of 16 bits. -/
  buffer : Nat

namespace LoadCell

variable {Weight : Type*}

/-- The constructor sets up the channel, and throws where the driver refuses it. -/
def construct (adcSpec : AdcDtSpec) (gramsOf : Int → Weight) (isReady : Bool) (channelSetup : Int) :
    Except MajorError (LoadCell Weight) :=
  if !isReady then .error ⟨.loadCell .adcIsReady, 0⟩ else
  if channelSetup ≠ 0 then .error ⟨.loadCell .adcChannelSetup, channelSetup⟩ else
  .ok { adcSpec := adcSpec, gramsOf := gramsOf, buffer := 0 }

/-- What the driver answers to the calls of one reading, and the sample it stores. -/
structure Reading where
  adcRead : Int
  sample : Int
  rawToMillivolts : Int
  deriving DecidableEq, Repr

/-- The driver stores a sample as a word of the buffer, in two's complement. -/
def store (self : LoadCell Weight) (sample : Int) : LoadCell Weight :=
  { self with buffer := Fixed.unsigned 16 sample }

/-- The millivolts of the word in the buffer, which is widened as an unsigned one. -/
def millivolts (self : LoadCell Weight) : Int :=
  -- Whether the channel is differential is not looked at here.
  let value : Int := self.buffer
  self.adcSpec.rawToMillivolts value

/-- A sample is read and converted, and the result is weighed. -/
def getWeightGrams (self : LoadCell Weight) (reading : Reading) :
    LoadCell Weight × Except MajorError Weight :=
  if reading.adcRead ≠ 0 then (self, .error ⟨.loadCell .adcRead, reading.adcRead⟩) else
  let self := self.store reading.sample
  if reading.rawToMillivolts ≠ 0 then
    (self, .error ⟨.loadCell .adcRawToMillivolt, reading.rawToMillivolts⟩)
  else (self, .ok (self.gramsOf self.millivolts))

/-- An accepted channel is the one that was asked for. -/
theorem construct_ok {adcSpec : AdcDtSpec} {gramsOf : Int → Weight} {isReady : Bool}
    {channelSetup : Int} {self : LoadCell Weight}
    (returned : construct adcSpec gramsOf isReady channelSetup = .ok self) :
    self.adcSpec = adcSpec := by
  -- Both tests throw, so a constructor that returns has passed them.
  unfold construct at returned
  split at returned
  · cases returned
  · split at returned
    · cases returned
    · cases returned
      rfl

/-- Where the driver succeeds, the weight is that of the converted word. -/
theorem getWeightGrams_ok (self : LoadCell Weight) (sample : Int) :
    self.getWeightGrams ⟨0, sample, 0⟩ =
      (self.store sample, .ok (self.gramsOf (self.store sample).millivolts)) := rfl

/-- The word of a sample that is not negative is the sample. -/
theorem millivolts_store_of_nonneg {self : LoadCell Weight} {sample : Int}
    (stored : self.adcSpec.MayStore sample) (nonneg : 0 ≤ sample) :
    (self.store sample).millivolts = self.adcSpec.rawToMillivolts sample := by
  -- At most 16 bits of magnitude are stored.
  have fits : (Fixed.unsigned 16 sample : Int) = sample :=
    Fixed.unsigned_of_fits nonneg stored.within.2
  simp only [millivolts, store, fits]

/-- The word of a negative sample is read as one that is 65536 larger. -/
theorem millivolts_store_of_neg {self : LoadCell Weight} {sample : Int}
    (stored : self.adcSpec.MayStore sample) (negative : sample < 0) :
    (self.store sample).millivolts = self.adcSpec.rawToMillivolts (sample + 65536) := by
  have lower := stored.within.1
  -- The word is the remainder, and one wrap makes it so.
  have word : (Fixed.unsigned 16 sample : Int) = sample + 65536 := by
    simp only [Fixed.unsigned]
    omega
  simp only [millivolts, store, word]

end LoadCell
end Notus
