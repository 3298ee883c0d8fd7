import Mathlib.Algebra.Order.Field.Rat
import Mathlib.Tactic.NormNum
import SmartDialer.Models.Documents

/-!
# The campaigns

`app/models/campaign.py` and `app/repositories/campaign_repo.py`. The dialer looks at a campaign
once a tick, and by then somebody may have stopped it, or changed its mode, through the API.

A validated field carries its bounds: a campaign whose baseline answer rate is not a positive
proportion cannot be read.
-/

namespace SmartDialer

open Store

/-- `CampaignStatus`. -/
inductive CampaignStatus where
  | draft | running | paused | stopped
  deriving DecidableEq, Repr

/-- `PacingConfig`; the engine reads its other fields from the settings. -/
structure PacingConfig where
  baselineAnswerRate : ℚ := 3 / 10
  pos : 0 < baselineAnswerRate := by norm_num
  le_one : baselineAnswerRate ≤ 1 := by norm_num
  deriving DecidableEq

/-- `default_factory=PacingConfig`: the default is within its bounds. -/
def PacingConfig.initial : PacingConfig := {}

/-- `app/models/campaign.py`: a campaign as it is stored. -/
structure CampaignDocument extends Campaign where
  status : CampaignStatus := .draft
  pacingConfig : PacingConfig := .initial
  deriving DecidableEq

instance : Document CampaignDocument String := ⟨fun d => d.id⟩

@[simp] theorem campaign_key (d : CampaignDocument) : key d = d.id := rfl

namespace CampaignRepository

/-- The `limit` of `find_running`. -/
def runningLimit : Int := 100

/-- The update of `set_status`. -/
def withStatus (status : CampaignStatus) : Update CampaignDocument where
  apply d := { d with status := status }
  key_apply _ := rfl

/-- The update of `set_dialing_mode`. -/
def withDialingMode (mode : DialingMode) : Update CampaignDocument where
  apply d := { d with dialingMode := mode }
  key_apply _ := rfl

/-- `find_by_id`. -/
def findById (campaignId : String) (campaigns : Collection CampaignDocument) :
    Option CampaignDocument :=
  campaigns.get campaignId

/-- `find_running`. -/
def findRunning (campaigns : Collection CampaignDocument) : List CampaignDocument :=
  Collection.limit runningLimit (campaigns.find fun d => d.status == .running)

/-- `insert`; the id is a new one. -/
def insert (campaign : CampaignDocument) (campaigns : Collection CampaignDocument) :
    Option (Collection CampaignDocument) :=
  campaigns.insert campaign

/-- `set_status`. -/
def setStatus (campaignId : String) (status : CampaignStatus)
    (campaigns : Collection CampaignDocument) :
    Option CampaignDocument × Collection CampaignDocument :=
  campaigns.findOneAndUpdate campaignId (fun _ => true) (withStatus status)

/-- `set_dialing_mode`. -/
def setDialingMode (campaignId : String) (mode : DialingMode)
    (campaigns : Collection CampaignDocument) :
    Option CampaignDocument × Collection CampaignDocument :=
  campaigns.findOneAndUpdate campaignId (fun _ => true) (withDialingMode mode)

/-- What `find_running` finds is running. -/
theorem running_of_mem {campaigns : Collection CampaignDocument} {d : CampaignDocument}
    (h : d ∈ findRunning campaigns) : d ∈ campaigns.docs ∧ d.status = .running := by
  have hmem : d ∈ campaigns.find fun d => d.status == .running := Collection.mem_of_mem_limit h
  rw [Collection.find, List.mem_filter, beq_iff_eq] at hmem
  exact hmem

end CampaignRepository

end SmartDialer
