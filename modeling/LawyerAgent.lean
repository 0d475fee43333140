import LawyerAgent.AIJobPublishBudget
import LawyerAgent.AIJobReplay
import LawyerAgent.ArticleSequences
import LawyerAgent.AttuAgreement
import LawyerAgent.BinaryWordSafety
import LawyerAgent.BoundedBulk
import LawyerAgent.ChunkSemantics
import LawyerAgent.ContractReviewOutcomes
import LawyerAgent.ContractReviewPages
import LawyerAgent.ConversationTurns
import LawyerAgent.CorpusExportRerun
import LawyerAgent.CorpusPublishRuns
import LawyerAgent.DeliveryConsumer
import LawyerAgent.DocumentReplay
import LawyerAgent.DocumentReviews
import LawyerAgent.EmbeddingWindows
import LawyerAgent.HistoryPages
import LawyerAgent.IdentityRegistrationRuns
import LawyerAgent.InvitationRuns
import LawyerAgent.LegalClaimRepair
import LawyerAgent.LegalDiffs
import LawyerAgent.LegalDocumentPages
import LawyerAgent.MatterPages
import LawyerAgent.McpGateway
import LawyerAgent.MemberPages
import LawyerAgent.NavigationIndex
import LawyerAgent.ParagraphChunks
import LawyerAgent.PolicyDecisions
import LawyerAgent.QuoteLocation
import LawyerAgent.RateLimitRuns
import LawyerAgent.ReleaseAudits
import LawyerAgent.RetrievalFusion
import LawyerAgent.RolloutPolicy
import LawyerAgent.RulePackActivation
import LawyerAgent.RulePackReplay
import LawyerAgent.SessionFamilies
import LawyerAgent.SourceProof
import LawyerAgent.WindowCoverage
